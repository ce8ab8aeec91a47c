import Bis.Json.Syntax

/-!
Encoders that differ in which characters they write behind a backslash: a table
of letters, and a set of characters that are written as a code unit.
-/

namespace Bis.Json

variable {lone : Option Char}

theorem stringBody_plain {c : Char} (rest : List Char) (hquote : c ≠ '"') (hslash : c ≠ '\\')
    (hspace : 0x20 ≤ c.toNat) : stringBody lone (c :: rest) = before c (stringBody lone rest) := by
  have hpieces : stringPieces (c :: rest) =
      (stringPieces rest).map fun p => (.inl c :: p.1, p.2) := by
    rw [stringPieces.eq_def]
    split
    · next heq => cases heq
    · next heq => exact absurd (List.cons.inj heq).1 hquote
    · next heq => exact absurd (List.cons.inj heq).1 hslash
    · next heq => exact absurd (List.cons.inj heq).1 hslash
    next heq =>
      obtain ⟨rfl, rfl⟩ := List.cons.inj heq
      have hplain : ¬ (c = '\\' ∨ c.toNat < 32) := by
        rintro (hc | hc)
        · exact hslash hc
        · omega
      rw [if_neg hplain]
      cases stringPieces rest <;> rfl
  simp only [stringBody, hpieces, before]
  cases stringPieces rest with
  | none => rfl
  | some p => cases hjoin : joinPieces lone none p.1 <;> simp [joinPieces, settle, hjoin]

theorem stringBody_short {e c : Char} (rest : List Char) (h : shortEscape e = some c) :
    stringBody lone ('\\' :: e :: rest) = before c (stringBody lone rest) := by
  have hpieces : stringPieces ('\\' :: e :: rest) =
      (stringPieces rest).map fun p => (.inl c :: p.1, p.2) := by
    rw [stringPieces.eq_def]
    split
    · next heq => cases heq
    · next heq => exact absurd (List.cons.inj heq).1 (by decide)
    next heq =>
      obtain ⟨rfl, -⟩ := List.cons.inj (List.cons.inj heq).2
      cases h
    next heq =>
      obtain ⟨rfl, rfl⟩ := List.cons.inj (List.cons.inj heq).2
      rw [h]
      cases stringPieces rest <;> rfl
    next hnone heq =>
      obtain ⟨rfl, rfl⟩ := List.cons.inj heq
      exact absurd rfl (hnone _ _ rfl)
  simp only [stringBody, hpieces, before]
  cases stringPieces rest with
  | none => rfl
  | some p => cases hjoin : joinPieces lone none p.1 <;> simp [joinPieces, settle, hjoin]

/-- A code unit of UTF-16 in four hexadecimal digits. -/
def unitEscape (n : Nat) : List Char :=
  ['\\', 'u', Nat.digitChar (n / 4096 % 16), Nat.digitChar (n / 256 % 16),
    Nat.digitChar (n / 16 % 16), Nat.digitChar (n % 16)]

theorem hexValue_digitChar {d : Nat} (h : d < 16) : hexValue (Nat.digitChar d) = some d := by
  have hall : ∀ d : Fin 16, hexValue (Nat.digitChar d) = some d.val := by decide
  exact hall ⟨d, h⟩

theorem hexUnit_digitChar {n : Nat} (h : n < 0x10000) :
    hexUnit (Nat.digitChar (n / 4096 % 16)) (Nat.digitChar (n / 256 % 16))
      (Nat.digitChar (n / 16 % 16)) (Nat.digitChar (n % 16)) = some n := by
  simp only [hexUnit, hexValue_digitChar (Nat.mod_lt _ (by omega : 0 < 16)),
    Option.bind_eq_bind, Option.bind_some, Option.some.injEq]
  omega

theorem stringBody_unit {c : Char} (rest : List Char) (h : c.toNat < 0x10000) :
    stringBody lone (unitEscape c.toNat ++ rest) = before c (stringBody lone rest) := by
  have hpieces : stringPieces (unitEscape c.toNat ++ rest) =
      (stringPieces rest).map fun p => (.inr c.toNat :: p.1, p.2) := by
    simp only [unitEscape, List.cons_append, List.nil_append, stringPieces, hexUnit_digitChar h]
    cases stringPieces rest <;> rfl
  -- a character is never one half of a surrogate pair
  have hvalid : c.toNat < 0xd800 ∨ 0xdfff < c.toNat ∧ c.toNat < 0x110000 := c.valid
  have hhigh : isHigh c.toNat = false := by
    simp only [isHigh, Bool.and_eq_false_iff, decide_eq_false_iff_not]
    omega
  have hlow : isLow c.toNat = false := by
    simp only [isLow, Bool.and_eq_false_iff, decide_eq_false_iff_not]
    omega
  simp only [stringBody, hpieces, before]
  cases stringPieces rest with
  | none => rfl
  | some p =>
    cases hjoin : joinPieces lone none p.1 <;>
      simp [joinPieces, settle, hjoin, hhigh, hlow, Char.ofNat_toNat]

/-- What an encoder escapes: a letter for some characters, the code unit for
others. The quote, the backslash and what comes before the space are among them. -/
structure EscapeTable where
  letter : Char → Option Char
  coded : Char → Bool
  letter_reads : ∀ c e, letter c = some e → shortEscape e = some c
  coded_bound : ∀ c, coded c = true → c.toNat < 0x10000
  complete : ∀ c, letter c = none → coded c = false → c ≠ '"' ∧ c ≠ '\\' ∧ 0x20 ≤ c.toNat

def EscapeTable.write (table : EscapeTable) (c : Char) : List Char :=
  match table.letter c with
  | some e => ['\\', e]
  | none => if table.coded c then unitEscape c.toNat else [c]

def EscapeTable.escape (table : EscapeTable) : Escape where
  write := table.write
  read_write lone c rest := by
    unfold EscapeTable.write
    split
    · next e hletter => exact stringBody_short rest (table.letter_reads c e hletter)
    next hletter =>
      split
      · next hcoded => exact stringBody_unit rest (table.coded_bound c hcoded)
      next hcoded =>
        obtain ⟨hquote, hslash, hspace⟩ :=
          table.complete c hletter (Bool.eq_false_iff.mpr hcoded)
        exact stringBody_plain rest hquote hslash hspace

/-! ### Two encoders -/

/-- The letters that all of them use. -/
def escapeLetter : Char → Option Char
  | '"' => some '"'
  | '\\' => some '\\'
  | '\x08' => some 'b'
  | '\x0c' => some 'f'
  | '\n' => some 'n'
  | '\r' => some 'r'
  | '\t' => some 't'
  | _ => none

def EscapeTable.ofCoded (coded : Char → Bool)
    (hbound : ∀ c, coded c = true → c.toNat < 0x10000)
    (hspace : ∀ c, c.toNat < 0x20 → coded c = true) : EscapeTable where
  letter := escapeLetter
  coded := coded
  letter_reads c e h := by
    unfold escapeLetter at h
    split at h <;> first | (cases h; rfl) | cases h
  coded_bound := hbound
  complete c hletter hcoded := by
    refine ⟨?_, ?_, ?_⟩
    · rintro rfl
      cases hletter
    · rintro rfl
      cases hletter
    · have hlarge : ¬c.toNat < 0x20 := fun h => by simp [hspace c h] at hcoded
      omega

/-- `serde_json`. -/
def serdeTable : EscapeTable :=
  EscapeTable.ofCoded (fun c => decide (c.toNat < 0x20))
    (fun c h => by
      rw [decide_eq_true_eq] at h
      omega)
    (fun c h => by simpa using h)

/-- Go's `encoding/json`, which keeps its texts safe inside of HTML and scripts. -/
def goTable : EscapeTable :=
  EscapeTable.ofCoded
    (fun c => decide (c.toNat < 0x20 ∨ c.toNat ∈ [0x3c, 0x3e, 0x26, 0x2028, 0x2029]))
    (fun c h => by
      rw [decide_eq_true_eq] at h
      rcases h with h | h
      · omega
      · simp only [List.mem_cons, List.not_mem_nil, or_false] at h
        omega)
    (fun c h => by simp [h])

end Bis.Json
