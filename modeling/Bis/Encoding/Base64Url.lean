import Mathlib.Data.List.Basic

/-!
Bytes as base64url texts without padding, and a decoder that passes over every
character outside of the two base64 alphabets, as a lenient one does.
-/

namespace Bis.Encoding

/-- The character of a six-bit number. -/
def base64UrlChar (n : Nat) : Char :=
  if n < 26 then Char.ofNat (n + 65)
  else if n < 52 then Char.ofNat (n + 71)
  else if n < 62 then Char.ofNat (n - 4)
  else if n = 62 then '-'
  else '_'

/-- The number of a character in one of the two alphabets. -/
def base64Value (c : Char) : Option Nat :=
  if 'A' ≤ c ∧ c ≤ 'Z' then some (c.toNat - 65)
  else if 'a' ≤ c ∧ c ≤ 'z' then some (c.toNat - 71)
  else if c.isDigit then some (c.toNat + 4)
  else if c = '-' ∨ c = '+' then some 62
  else if c = '_' ∨ c = '/' then some 63
  else none

def base64UrlEncode : List UInt8 → List Char
  | [] => []
  | [a] => [base64UrlChar (a.toNat / 4), base64UrlChar (a.toNat % 4 * 16)]
  | [a, b] =>
    [base64UrlChar (a.toNat / 4), base64UrlChar (a.toNat % 4 * 16 + b.toNat / 16),
      base64UrlChar (b.toNat % 16 * 4)]
  | a :: b :: c :: rest =>
    base64UrlChar (a.toNat / 4) :: base64UrlChar (a.toNat % 4 * 16 + b.toNat / 16) ::
      base64UrlChar (b.toNat % 16 * 4 + c.toNat / 64) :: base64UrlChar (c.toNat % 64) ::
        base64UrlEncode rest

/-- Six-bit numbers as bytes; bits that fill no byte are dropped. -/
def joinSextets : List Nat → List UInt8
  | p :: q :: r :: s :: rest =>
    UInt8.ofNat (p * 4 + q / 16) :: UInt8.ofNat (q % 16 * 16 + r / 4) ::
      UInt8.ofNat (r % 4 * 64 + s) :: joinSextets rest
  | [p, q, r] => [UInt8.ofNat (p * 4 + q / 16), UInt8.ofNat (q % 16 * 16 + r / 4)]
  | [p, q] => [UInt8.ofNat (p * 4 + q / 16)]
  | _ => []

/-- `Buffer.from(text, "base64url")`. -/
def base64UrlDecode (text : List Char) : List UInt8 := joinSextets (text.filterMap base64Value)

theorem base64Value_char {n : Nat} (h : n < 64) : base64Value (base64UrlChar n) = some n := by
  have hall : ∀ i : Fin 64, base64Value (base64UrlChar i.val) = some i.val := by decide
  exact hall ⟨n, h⟩

/-- A byte out of the upper and the lower part that two characters carry. -/
theorem ofNat_of_eq {b : UInt8} {n : Nat} (h : n = b.toNat) : UInt8.ofNat n = b := by
  rw [h, UInt8.ofNat_toNat]

/-- Bytes are decoded as they were encoded. -/
theorem base64UrlDecode_encode : ∀ bytes : List UInt8,
    base64UrlDecode (base64UrlEncode bytes) = bytes
  | [] => rfl
  | [a] => by
    have ha := a.toNat_lt
    simp only [base64UrlDecode, base64UrlEncode, List.filterMap_cons, List.filterMap_nil]
    rw [base64Value_char (by omega), base64Value_char (by omega)]
    simp only [joinSextets]
    rw [ofNat_of_eq (b := a) (by omega)]
  | [a, b] => by
    have ha := a.toNat_lt
    have hb := b.toNat_lt
    simp only [base64UrlDecode, base64UrlEncode, List.filterMap_cons, List.filterMap_nil]
    rw [base64Value_char (by omega), base64Value_char (by omega), base64Value_char (by omega)]
    simp only [joinSextets]
    rw [ofNat_of_eq (b := a) (by omega), ofNat_of_eq (b := b) (by omega)]
  | a :: b :: c :: rest => by
    have ha := a.toNat_lt
    have hb := b.toNat_lt
    have hc := c.toNat_lt
    have ih := base64UrlDecode_encode rest
    simp only [base64UrlDecode, base64UrlEncode, List.filterMap_cons] at ih ⊢
    rw [base64Value_char (by omega), base64Value_char (by omega), base64Value_char (by omega),
      base64Value_char (by omega)]
    simp only [joinSextets, ih]
    rw [ofNat_of_eq (b := a) (by omega), ofNat_of_eq (b := b) (by omega),
      ofNat_of_eq (b := c) (by omega)]

theorem length_base64UrlEncode : ∀ bytes : List UInt8,
    3 * (base64UrlEncode bytes).length ≤ 4 * bytes.length + 2
  | [] => by simp [base64UrlEncode]
  | [a] => by simp [base64UrlEncode]
  | [a, b] => by simp [base64UrlEncode]
  | a :: b :: c :: rest => by
    have ih := length_base64UrlEncode rest
    simp only [base64UrlEncode, List.length_cons]
    omega

theorem isUpper_eq (c : Char) : c.isUpper = decide (c.val ≥ 'A'.val ∧ c.val ≤ 'Z'.val) :=
  rfl

theorem isAlphanum_eq (c : Char) :
    c.isAlphanum = ((decide (c.val ≥ 'A'.val ∧ c.val ≤ 'Z'.val) ||
      decide (c.val ≥ 'a'.val) && decide (c.val ≤ 'z'.val)) ||
        decide (c.val ≥ '0'.val) && decide (c.val ≤ '9'.val)) :=
  rfl

def isBase64UrlChar (c : Char) : Bool := c.isAlphanum || c == '-' || c == '_'

theorem isBase64UrlChar_char (n : Nat) : isBase64UrlChar (base64UrlChar n) = true := by
  by_cases h : n < 64
  · have hall : ∀ i : Fin 64, isBase64UrlChar (base64UrlChar i.val) = true := by decide
    exact hall ⟨n, h⟩
  · have hlast : base64UrlChar n = '_' := by
      unfold base64UrlChar
      rw [if_neg (by omega), if_neg (by omega), if_neg (by omega), if_neg (by omega)]
    rw [hlast]
    rfl

theorem all_base64UrlEncode : ∀ bytes : List UInt8,
    (base64UrlEncode bytes).all isBase64UrlChar = true
  | [] => rfl
  | [a] => by simp [base64UrlEncode, isBase64UrlChar_char]
  | [a, b] => by simp [base64UrlEncode, isBase64UrlChar_char]
  | a :: b :: c :: rest => by
    have ih := all_base64UrlEncode rest
    simp only [base64UrlEncode, List.all_cons, isBase64UrlChar_char, ih, Bool.and_self]

end Bis.Encoding
