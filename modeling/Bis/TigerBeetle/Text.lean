import Bis.Encoding.Framing
import Bis.TigerBeetle.Debit

/-!
What the ledger service writes into bytes can be read back: texts in UTF-8,
numbers in decimal, digests in hexadecimal and lengths in eight bytes.
-/

namespace Bis.TigerBeetle

open Bis.Encoding

theorem utf8_injective {text text' : String} (h : utf8 text = utf8 text') : text = text' := by
  apply String.toByteArray_inj.mp
  apply ByteArray.ext
  exact Array.toList_inj.mp h

theorem utf8ByteSize_ofList_le (characters : List Char) :
    (String.ofList characters).utf8ByteSize ≤ 4 * characters.length := by
  induction characters with
  | nil => simp
  | cons c rest ih =>
    have hcons : (String.ofList (c :: rest)).utf8ByteSize =
        c.utf8Size + (String.ofList rest).utf8ByteSize := by simp
    have hsize := c.utf8Size_le_four
    rw [hcons, List.length_cons]
    omega

/-- A character takes four bytes at most. -/
theorem length_utf8_le (text : String) : (utf8 text).length ≤ 4 * text.toList.length := by
  have hsize := utf8ByteSize_ofList_le text.toList
  rw [String.ofList_toList] at hsize
  exact hsize

/-! ### Decimal numbers -/

variable {n m : Nat}

theorem isDigit_of_mem_digits {c : Char} (h : c ∈ Nat.toDigits 10 n) : c.isDigit :=
  Nat.isDigit_of_mem_toDigits (by omega) (by omega) h

/-- The characters of a decimal number. -/
theorem toList_toString_int (n : Int) :
    (toString n).toList = if n < 0 then '-' :: Nat.toDigits 10 n.natAbs
      else Nat.toDigits 10 n.natAbs := by
  cases n with
  | ofNat m =>
    have hnonneg : ¬ (Int.ofNat m < 0) := by simp
    rw [if_neg hnonneg]
    exact Nat.toList_repr
  | negSucc m =>
    have hneg : Int.negSucc m < 0 := Int.negSucc_lt_zero m
    rw [if_pos hneg]
    change ("-" ++ m.succ.repr).toList = _
    rw [String.toList_append, Nat.toList_repr]
    rfl

theorem toString_int_injective {m n : Int} (h : toString m = toString n) : m = n := by
  have hlists := congrArg String.toList h
  rw [toList_toString_int, toList_toString_int] at hlists
  have hdash : ∀ k : Nat, ∀ rest, '-' :: rest ≠ Nat.toDigits 10 k := by
    intro k rest hsame
    have hdigit := isDigit_of_mem_digits (hsame ▸ List.mem_cons_self)
    exact absurd hdigit (by decide)
  by_cases hm : m < 0 <;> by_cases hn : n < 0
  · rw [if_pos hm, if_pos hn] at hlists
    have habs := digits_injective (List.cons.inj hlists).2
    omega
  · rw [if_pos hm, if_neg hn] at hlists
    exact absurd hlists (hdash _ _)
  · rw [if_neg hm, if_pos hn] at hlists
    exact absurd hlists.symm (hdash _ _)
  · rw [if_neg hm, if_neg hn] at hlists
    have habs := digits_injective hlists
    omega

theorem length_digits_le (h : n < 2 ^ 64) : (Nat.toDigits 10 n).length ≤ 20 :=
  (Nat.length_toDigits_le_iff (by omega) (by omega)).mpr (by omega)

/-- The numbers of the service are written in a few characters. -/
theorem length_toString_int_le {n : Int} (h : n.natAbs < 2 ^ 64) :
    (toString n).toList.length ≤ 21 := by
  have hdigits := length_digits_le h
  rw [toList_toString_int]
  split
  · rw [List.length_cons]
    omega
  · omega

theorem newline_not_mem_toString_int (n : Int) : '\n' ∉ (toString n).toList := by
  rw [toList_toString_int]
  have hdigits : '\n' ∉ Nat.toDigits 10 n.natAbs := by
    intro hmem
    exact absurd (isDigit_of_mem_digits hmem) (by decide)
  split
  · simpa using hdigits
  · exact hdigits

/-! ### Hexadecimal digests -/

theorem hexDigit_injective (hm : m < 16) (hn : n < 16) (h : hexDigit m = hexDigit n) : m = n := by
  have hall : ∀ i j : Fin 16, hexDigit i = hexDigit j → i = j := by decide
  exact congrArg Fin.val (hall ⟨m, hm⟩ ⟨n, hn⟩ h)

theorem hexPair_injective {b b' : UInt8}
    (h : [hexDigit (b.toNat / 16), hexDigit (b.toNat % 16)] =
      [hexDigit (b'.toNat / 16), hexDigit (b'.toNat % 16)]) : b = b' := by
  obtain ⟨hhigh, hlow⟩ := List.cons.inj h
  have hb := b.toNat_lt
  have hb' := b'.toNat_lt
  have hquotients := hexDigit_injective (by omega) (by omega) hhigh
  have hremainders := hexDigit_injective (by omega) (by omega) (List.cons.inj hlow).1
  apply UInt8.toNat_inj.mp
  omega

theorem hexEncode_injective {bytes bytes' : List UInt8} (h : hexEncode bytes = hexEncode bytes') :
    bytes = bytes' := by
  have hlists := congrArg String.toList h
  simp only [hexEncode, String.toList_ofList] at hlists
  exact flatMap_injective (fun _ => rfl) (fun _ _ => hexPair_injective) hlists

theorem newline_not_mem_hexEncode (bytes : List UInt8) : '\n' ∉ (hexEncode bytes).toList := by
  have hdigit : ∀ n : Nat, n < 16 → hexDigit n ≠ '\n' := by decide
  rw [hexEncode, String.toList_ofList, List.mem_flatMap]
  rintro ⟨b, _, hmem⟩
  have hb := b.toNat_lt
  rcases List.mem_cons.mp hmem with hhigh | hrest
  · exact hdigit _ (by omega) hhigh.symm
  · exact hdigit _ (by omega) (List.mem_singleton.mp hrest).symm

/-! ### Lengths -/

theorem length_toBeBytes (n : Nat) : (toBeBytes n).length = 8 := by
  simp [toBeBytes]

/-- Eight bytes tell the lengths apart that they can hold. -/
theorem toBeBytes_injective (hm : m < 2 ^ 64) (hn : n < 2 ^ 64) (h : toBeBytes m = toBeBytes n) :
    m = n := by
  have hbyte : ∀ i < 8, m / 256 ^ (7 - i) % 256 = n / 256 ^ (7 - i) % 256 := by
    intro i hi
    have hget := congrArg (fun bytes => (bytes.getD i 0).toNat) h
    simpa [toBeBytes, hi] using hget
  have h0 := hbyte 0 (by omega)
  have h1 := hbyte 1 (by omega)
  have h2 := hbyte 2 (by omega)
  have h3 := hbyte 3 (by omega)
  have h4 := hbyte 4 (by omega)
  have h5 := hbyte 5 (by omega)
  have h6 := hbyte 6 (by omega)
  have h7 := hbyte 7 (by omega)
  norm_num at h0 h1 h2 h3 h4 h5 h6 h7
  omega

end Bis.TigerBeetle
