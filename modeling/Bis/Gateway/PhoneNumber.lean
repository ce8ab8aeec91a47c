import Bis.Encoding.Framing
import Bis.Gateway.Outbox

/-!
Phone numbers as the gateway normalises them. What is accepted spells a number of the
Nigerian numbering plan or, where they are allowed, is an international one. A landline is
not accepted with its country code and no plus, and white space behind punctuation is not
trimmed; otherwise the spellings of a number agree, and punctuation says nothing.
-/

namespace Bis.Gateway

open Bis.Encoding List

/-! ### Normalisation -/

def isPunctuation (c : Char) : Bool := c ∈ [' ', '-', '.', '(', ')']

def cleanPhoneInput (raw : List Char) : List Char := raw.filter fun c => !isPunctuation c

def isAllDigits (text : List Char) : Bool := text.all Char.isDigit && !text.isEmpty

def validE164Shape : List Char → Bool
  | '+' :: digits =>
    decide (7 ≤ digits.length) && decide (digits.length ≤ 15) && digits.head? != some '0' &&
      isAllDigits digits
  | _ => false

def errInvalidPhoneNumber : String := "invalid phone number"

def mobile (nsn : List Char) : Bool :=
  nsn.length == 10 && nsn.head?.any fun c => c == '7' || c == '8' || c == '9'

def landline (nsn : List Char) : Bool :=
  (nsn.length == 8 || nsn.length == 9) && nsn.head?.any fun c => c == '1' || c == '2'

def validateNGNumber (e164 : List Char) : Except String (List Char) :=
  let nsn := if "+234".toList.isPrefixOf e164 then e164.drop 4 else e164
  if !isAllDigits nsn then .error errInvalidPhoneNumber
  else if mobile nsn then .ok ("+234".toList ++ nsn)
  else if landline nsn then .ok ("+234".toList ++ nsn)
  else .error errInvalidPhoneNumber

def normalizePhoneNG (allowInternational : Bool) (raw : List Char) : Except String (List Char) :=
  let cleaned := cleanPhoneInput (trimmed isSpaceRune raw)
  if cleaned = [] then .error errInvalidPhoneNumber
  else if "+234".toList.isPrefixOf cleaned then validateNGNumber ("+234".toList ++ cleaned.drop 4)
  else if "234".toList.isPrefixOf cleaned ∧ cleaned.length = 13 ∧ isAllDigits cleaned then
    validateNGNumber ('+' :: cleaned)
  else if "0".toList.isPrefixOf cleaned then validateNGNumber ("+234".toList ++ cleaned.drop 1)
  else if isAllDigits cleaned ∧ cleaned.length = 10 ∧ cleaned.head? ≠ some '0' then
    validateNGNumber ("+234".toList ++ cleaned)
  else if "+".toList.isPrefixOf cleaned then
    if !allowInternational then
      .error (errInvalidPhoneNumber ++
        ": non-Nigerian numbers require PHONE_LOOKUP_ALLOW_INTERNATIONAL=true")
    else if !validE164Shape cleaned then .error errInvalidPhoneNumber
    else .ok cleaned
  else .error errInvalidPhoneNumber

/-! ### Spellings -/

/-- A national number of the numbering plan. -/
def National (nsn : List Char) : Prop := isAllDigits nsn ∧ (mobile nsn ∨ landline nsn)

def withCode (nsn : List Char) : List Char := "+234".toList ++ nsn

/-- The shape of a number: plus, 7 to 15 digits, and the first of them is not zero. -/
def E164 (number : List Char) : Prop :=
  ∃ digits, number = '+' :: digits ∧ 7 ≤ digits.length ∧ digits.length ≤ 15 ∧
    digits.all Char.isDigit = true ∧ digits.head? ≠ some '0'

/-- The text spells this number. -/
inductive Spells (allowInternational : Bool) : List Char → List Char → Prop
  | plus {nsn : List Char} (h : National nsn) :
      Spells allowInternational (withCode nsn) (withCode nsn)
  | code {nsn : List Char} (h : National nsn) (hlength : nsn.length = 10) :
      Spells allowInternational ("234".toList ++ nsn) (withCode nsn)
  | trunk {nsn : List Char} (h : National nsn) :
      Spells allowInternational ('0' :: nsn) (withCode nsn)
  | bare {nsn : List Char} (h : National nsn) (hlength : nsn.length = 10) :
      Spells allowInternational nsn (withCode nsn)
  | international {text : List Char} (hallow : allowInternational) (hshape : validE164Shape text)
      (hforeign : ¬ "+234".toList <+: text) : Spells allowInternational text text

variable {nsn number text : List Char} {allowInternational : Bool}

theorem validateNGNumber_ok_iff :
    validateNGNumber (withCode nsn) = .ok number ↔ National nsn ∧ number = withCode nsn := by
  have hfront : "+234".toList.isPrefixOf (withCode nsn) = true :=
    List.isPrefixOf_iff_prefix.mpr ⟨nsn, rfl⟩
  have hdrop : (withCode nsn).drop 4 = nsn := rfl
  unfold validateNGNumber National
  simp only [hfront, if_true, hdrop]
  cases isAllDigits nsn <;> cases mobile nsn <;> cases landline nsn <;>
    simp [withCode, eq_comm]

/-- Ten digits with a mobile range in front, or fewer with an area code. -/
theorem National.head (h : National nsn) :
    ∃ d rest, nsn = d :: rest ∧ d ∈ ['1', '2', '7', '8', '9'] ∧
      (nsn.length = 10 → d ∈ ['7', '8', '9']) ∧ 8 ≤ nsn.length ∧ nsn.length ≤ 10 := by
  obtain ⟨hdigits, hplan⟩ := h
  cases nsn with
  | nil => cases hdigits
  | cons d rest =>
    refine ⟨d, rest, rfl, ?_⟩
    rcases hplan with hplan | hplan
    · simp only [mobile, Bool.and_eq_true, beq_iff_eq, head?_cons, Option.any_some,
        Bool.or_eq_true] at hplan
      obtain ⟨hlength, (rfl | rfl) | rfl⟩ := hplan <;> simp [hlength]
    · simp only [landline, Bool.and_eq_true, Bool.or_eq_true, beq_iff_eq, head?_cons,
        Option.any_some] at hplan
      obtain ⟨hlength | hlength, rfl | rfl⟩ := hplan <;> simp [hlength]

theorem National.all (h : National nsn) : nsn.all Char.isDigit = true :=
  (Bool.and_eq_true_iff.mp h.1).1

theorem National.e164 (h : National nsn) : E164 (withCode nsn) := by
  obtain ⟨_, _, _, _, _, hlow, hhigh⟩ := h.head
  refine ⟨"234".toList ++ nsn, rfl, ?_, ?_, ?_, by simp⟩
  · rw [length_append]
    exact Nat.le_add_left_of_le (by omega)
  · rw [length_append]
    change 3 + nsn.length ≤ 15
    omega
  · rw [all_append, h.all]
    rfl

theorem e164_of_validE164Shape (h : validE164Shape text = true) : E164 text := by
  unfold validE164Shape at h
  split at h
  next digits =>
    simp only [isAllDigits, Bool.and_eq_true, decide_eq_true_eq, bne_iff_ne] at h
    exact ⟨digits, rfl, h.1.1.1, h.1.1.2, h.2.1, h.1.2⟩
  next => cases h

theorem Spells.e164 (h : Spells allowInternational text number) : E164 number := by
  cases h with
  | plus h | code h _ | trunk h | bare h _ => exact h.e164
  | international _ hshape _ => exact e164_of_validE164Shape hshape

/-- A number spells itself. -/
theorem Spells.self (h : Spells allowInternational text number) :
    Spells allowInternational number number := by
  cases h with
  | plus h | code h _ | trunk h | bare h _ => exact .plus h
  | international hallow hshape hforeign => exact .international hallow hshape hforeign

/-! ### What is accepted -/

theorem normalizePhoneNG_ok_iff {raw : List Char} :
    normalizePhoneNG allowInternational raw = .ok number ↔
      Spells allowInternational (cleanPhoneInput (trimmed isSpaceRune raw)) number := by
  unfold normalizePhoneNG
  dsimp only
  generalize cleanPhoneInput (trimmed isSpaceRune raw) = cleaned
  constructor
  · intro h
    split at h
    next => cases h
    split at h
    next hplus =>
      obtain ⟨nsn, rfl⟩ := List.isPrefixOf_iff_prefix.mp hplus
      obtain ⟨hnational, rfl⟩ := validateNGNumber_ok_iff.mp h
      exact .plus hnational
    split at h
    next hcode =>
      obtain ⟨hcode, hlength, _⟩ := hcode
      obtain ⟨nsn, rfl⟩ := List.isPrefixOf_iff_prefix.mp hcode
      obtain ⟨hnational, rfl⟩ := validateNGNumber_ok_iff.mp h
      exact .code hnational (by simpa using hlength)
    split at h
    next htrunk =>
      obtain ⟨nsn, rfl⟩ := List.isPrefixOf_iff_prefix.mp htrunk
      obtain ⟨hnational, rfl⟩ := validateNGNumber_ok_iff.mp h
      exact .trunk hnational
    split at h
    next hbare =>
      obtain ⟨hnational, rfl⟩ := validateNGNumber_ok_iff.mp h
      exact .bare hnational hbare.2.1
    split at h
    next hplus =>
      split at h
      next => cases h
      next hallow =>
        split at h
        next => cases h
        next hshape =>
          cases h
          refine .international (by simpa using hallow) (by simpa using hshape) fun hforeign => ?_
          exact absurd (List.isPrefixOf_iff_prefix.mpr hforeign) ‹_›
    next => cases h
  · intro h
    cases h with
    | @plus nsn h | @trunk nsn h =>
      have hresult := validateNGNumber_ok_iff.mpr ⟨h, rfl⟩
      simpa [withCode] using hresult
    | @code nsn h hlength =>
      have hresult := validateNGNumber_ok_iff.mpr ⟨h, rfl⟩
      have hall : isAllDigits ('2' :: '3' :: '4' :: nsn) = true := by
        rw [isAllDigits, all_cons, all_cons, all_cons, h.all]
        rfl
      simpa [withCode, hlength, hall] using hresult
    | bare h hlength =>
      have hresult := validateNGNumber_ok_iff.mpr ⟨h, rfl⟩
      obtain ⟨d, rest, rfl, _, hmobile, _⟩ := h.head
      have hd := hmobile hlength
      simp only [mem_cons, not_mem_nil, or_false] at hd
      obtain rfl | rfl | rfl := hd
      all_goals simpa [withCode, h.1, hlength] using hresult
    | international hallow hshape hforeign =>
      obtain ⟨digits, rfl, _⟩ := e164_of_validE164Shape hshape
      have hplus : ¬ "+234".toList.isPrefixOf ('+' :: digits) = true := fun h =>
        hforeign (List.isPrefixOf_iff_prefix.mp h)
      have hdigits : isAllDigits ('+' :: digits) = false := rfl
      rw [if_neg (cons_ne_nil _ _), if_neg hplus]
      simp [hallow, hshape, hdigits]

theorem toOption_eq_iff {a b : Except String (List Char)} :
    a.toOption = b.toOption ↔ ∀ number, a = .ok number ↔ b = .ok number := by
  cases a <;> cases b <;> simp [Except.toOption]

section

variable {allowInternational : Bool} {nsn number : List Char}

theorem spells_withCode_iff :
    Spells allowInternational (withCode nsn) number ↔ National nsn ∧ number = withCode nsn := by
  constructor
  · intro h
    generalize htext : withCode nsn = text at h
    cases h with
    | @plus other h =>
      obtain rfl : nsn = other := append_cancel_left htext
      exact ⟨h, rfl⟩
    | code | trunk => cases htext
    | bare h _ =>
      subst htext
      exact absurd h.all (by simp [withCode])
    | international _ _ hforeign => exact absurd ⟨nsn, htext⟩ hforeign
  · rintro ⟨h, rfl⟩
    exact .plus h

theorem spells_trunk_iff :
    Spells allowInternational ('0' :: nsn) number ↔ National nsn ∧ number = withCode nsn := by
  constructor
  · intro h
    generalize htext : '0' :: nsn = text at h
    cases h with
    | plus | code => cases htext
    | trunk h =>
      cases htext
      exact ⟨h, rfl⟩
    | bare h _ =>
      obtain ⟨d, rest, rfl, hd, _⟩ := h.head
      cases htext
      exact absurd hd (by decide)
    | international _ hshape _ =>
      subst htext
      cases hshape
  · rintro ⟨h, rfl⟩
    exact .trunk h

theorem spells_code_iff :
    Spells allowInternational ("234".toList ++ nsn) number ↔
      National nsn ∧ nsn.length = 10 ∧ number = withCode nsn := by
  constructor
  · intro h
    generalize htext : "234".toList ++ nsn = text at h
    cases h with
    | plus | trunk => cases htext
    | @code other h hlength =>
      obtain rfl : nsn = other := append_cancel_left htext
      exact ⟨h, hlength, rfl⟩
    | bare h hlength =>
      obtain ⟨d, rest, rfl, _, hmobile, _⟩ := h.head
      cases htext
      exact absurd (hmobile hlength) (by decide)
    | international _ hshape _ =>
      subst htext
      cases hshape
  · rintro ⟨h, hlength, rfl⟩
    exact .code h hlength

/-! ### Characters of a spelling -/

/-- Neither punctuation nor space. -/
def Dialled (c : Char) : Prop := c = '+' ∨ c.isDigit = true

theorem Dialled.kept {c : Char} (h : Dialled c) : isPunctuation c = false := by
  rcases h with rfl | h
  · decide
  · rw [← Bool.not_eq_true]
    intro hc
    simp only [isPunctuation, decide_eq_true_eq, mem_cons, not_mem_nil, or_false] at hc
    rcases hc with rfl | rfl | rfl | rfl | rfl <;> cases h

theorem Dialled.not_space {c : Char} (h : Dialled c) : isSpaceRune c = false := by
  rcases h with rfl | h
  · decide
  · obtain ⟨hlow, hhigh⟩ := Char.isDigit_iff_toNat.mp h
    exact isSpaceRune_eq_false (Nat.le_trans (by decide) hlow) (Nat.le_trans hhigh (by decide))

theorem E164.dialled (h : E164 number) : ∀ c ∈ number, Dialled c := by
  obtain ⟨digits, rfl, _, _, hall, _⟩ := h
  exact forall_mem_cons.mpr
    ⟨Or.inl rfl, fun c hc => Or.inr (all_eq_true.mp hall c hc)⟩

theorem dialled_of_isAllDigits (h : isAllDigits nsn = true) : ∀ c ∈ nsn, Dialled c := fun c hc =>
  Or.inr (all_eq_true.mp (Bool.and_eq_true_iff.mp h).1 c hc)

theorem dialled_trunk (h : isAllDigits nsn = true) : ∀ c ∈ '0' :: nsn, Dialled c :=
  forall_mem_cons.mpr ⟨Or.inr rfl, dialled_of_isAllDigits h⟩

theorem dialled_code (h : isAllDigits nsn = true) : ∀ c ∈ "234".toList ++ nsn, Dialled c :=
  forall_mem_cons.mpr ⟨Or.inr rfl, forall_mem_cons.mpr
    ⟨Or.inr rfl, forall_mem_cons.mpr ⟨Or.inr rfl, dialled_of_isAllDigits h⟩⟩⟩

theorem dialled_withCode (h : isAllDigits nsn = true) : ∀ c ∈ withCode nsn, Dialled c :=
  forall_mem_cons.mpr ⟨Or.inl rfl, dialled_code h⟩

variable {text : List Char}

theorem Spells.dialled (h : Spells allowInternational text number) : ∀ c ∈ text, Dialled c := by
  cases h with
  | plus h => exact h.e164.dialled
  | code h _ => exact dialled_code h.1
  | trunk h => exact dialled_trunk h.1
  | bare h _ => exact dialled_of_isAllDigits h.1
  | international _ hshape _ => exact (e164_of_validE164Shape hshape).dialled

theorem cleanPhoneInput_eq_self (h : ∀ c ∈ text, isPunctuation c = false) :
    cleanPhoneInput text = text :=
  filter_eq_self.mpr fun c hc => by rw [h c hc]; rfl

/-- Without its punctuation and then without the space around it. -/
theorem cleanPhoneInput_trimmed (raw : List Char) :
    cleanPhoneInput (trimmed isSpaceRune (cleanPhoneInput raw)) =
      trimmed isSpaceRune (cleanPhoneInput raw) := by
  refine cleanPhoneInput_eq_self fun c hc => ?_
  obtain ⟨front, back, hraw, _, _⟩ := exists_trimmed isSpaceRune (cleanPhoneInput raw)
  have hmem : c ∈ cleanPhoneInput raw := by
    rw [hraw]
    exact mem_append_left _ (mem_append_right _ hc)
  simpa using (mem_filter.mp hmem).2

theorem trimmed_cleanPhoneInput {raw : List Char}
    (h : ∀ c ∈ cleanPhoneInput (trimmed isSpaceRune raw), Dialled c) :
    cleanPhoneInput (trimmed isSpaceRune raw) = trimmed isSpaceRune (cleanPhoneInput raw) := by
  obtain ⟨front, back, hraw, hfront, hback⟩ := exists_trimmed isSpaceRune raw
  have hclean : cleanPhoneInput raw = cleanPhoneInput front ++
      cleanPhoneInput (trimmed isSpaceRune raw) ++ cleanPhoneInput back := by
    conv_lhs => rw [hraw]
    simp only [cleanPhoneInput, filter_append]
  rw [hclean, trimmed_append]
  · exact fun c hc => hfront c (mem_filter.mp hc).1
  · exact fun c hc => hback c (mem_filter.mp hc).1
  · exact fun c hc => (h c hc).not_space

/-- What only has the characters of a number is left as it is. -/
theorem normalizePhoneNG_of_dialled (h : ∀ c ∈ text, Dialled c) :
    normalizePhoneNG allowInternational text = .ok number ↔
      Spells allowInternational text number := by
  rw [normalizePhoneNG_ok_iff, trimmed_of_none fun c hc => (h c hc).not_space,
    cleanPhoneInput_eq_self fun c hc => (h c hc).kept]

/-! ### The law -/

/-- What is accepted is a number that is accepted again, punctuation says nothing, and the
three spellings of a national number give the same. -/
structure Consistent (allowInternational : Bool) (raw nsn : List Char) : Prop where
  e164 : ∀ number, normalizePhoneNG allowInternational raw = .ok number → E164 number
  again : ∀ number, normalizePhoneNG allowInternational raw = .ok number →
    normalizePhoneNG allowInternational number = .ok number
  punctuation : (normalizePhoneNG allowInternational (cleanPhoneInput raw)).toOption =
    (normalizePhoneNG allowInternational raw).toOption
  spellings : isAllDigits nsn = true → ∀ text ∈ ["234".toList ++ nsn, '0' :: nsn],
    (normalizePhoneNG allowInternational text).toOption =
      (normalizePhoneNG allowInternational (withCode nsn)).toOption

theorem punctuation_iff {raw : List Char} :
    (normalizePhoneNG allowInternational (cleanPhoneInput raw)).toOption =
        (normalizePhoneNG allowInternational raw).toOption ↔
      cleanPhoneInput (trimmed isSpaceRune raw) = trimmed isSpaceRune (cleanPhoneInput raw) ∨
        ∀ number, ¬ Spells allowInternational (trimmed isSpaceRune (cleanPhoneInput raw))
          number := by
  simp only [toOption_eq_iff, normalizePhoneNG_ok_iff, cleanPhoneInput_trimmed]
  constructor
  · intro h
    by_cases hnone : ∀ number, ¬ Spells allowInternational
        (trimmed isSpaceRune (cleanPhoneInput raw)) number
    · exact Or.inr hnone
    · obtain ⟨number, hspells⟩ := not_forall_not.mp hnone
      exact Or.inl (trimmed_cleanPhoneInput ((h number).mp hspells).dialled)
  · rintro (h | h) number
    · rw [h]
    · refine ⟨fun hspells => absurd hspells (h number), fun hspells => ?_⟩
      rw [trimmed_cleanPhoneInput hspells.dialled] at hspells
      exact absurd hspells (h number)

theorem National.length_eq (h : National nsn) : nsn.length = 10 ↔ landline nsn = false := by
  obtain ⟨hdigits, hplan⟩ := h
  simp only [mobile, landline, Bool.and_eq_true, Bool.or_eq_true, beq_iff_eq,
    Bool.and_eq_false_iff, Bool.or_eq_false_iff, beq_eq_false_iff_ne] at hplan ⊢
  constructor
  · intro hlength
    exact Or.inl ⟨by omega, by omega⟩
  · intro hnot
    rcases hplan with hmobile | ⟨hlength, hhead⟩
    · exact hmobile.1
    · rcases hnot with hnot | hnot
      · omega
      · rw [hhead] at hnot
        cases hnot

theorem spellings_iff :
    (isAllDigits nsn = true → ∀ text ∈ ["234".toList ++ nsn, '0' :: nsn],
      (normalizePhoneNG allowInternational text).toOption =
        (normalizePhoneNG allowInternational (withCode nsn)).toOption) ↔
      ¬ (isAllDigits nsn = true ∧ landline nsn = true) := by
  constructor
  · rintro h ⟨hdigits, hlandline⟩
    have hnational : National nsn := ⟨hdigits, Or.inr hlandline⟩
    have hsame := toOption_eq_iff.mp (h hdigits _ mem_cons_self) (withCode nsn)
    rw [normalizePhoneNG_of_dialled (dialled_code hdigits), spells_code_iff,
      normalizePhoneNG_of_dialled (dialled_withCode hdigits), spells_withCode_iff] at hsame
    have hlength := hnational.length_eq.mp (hsame.mpr ⟨hnational, rfl⟩).2.1
    exact absurd hlandline (by simp [hlength])
  · intro h hdigits text htext
    refine toOption_eq_iff.mpr fun number => ?_
    rw [normalizePhoneNG_of_dialled (dialled_withCode hdigits), spells_withCode_iff]
    simp only [mem_cons, not_mem_nil, or_false] at htext
    rcases htext with rfl | rfl
    · rw [normalizePhoneNG_of_dialled (dialled_code hdigits), spells_code_iff]
      have hlength (hnational : National nsn) : nsn.length = 10 :=
        hnational.length_eq.mpr (Bool.not_eq_true _ ▸ fun hlandline => h ⟨hdigits, hlandline⟩)
      exact ⟨fun h => ⟨h.1, h.2.2⟩, fun h => ⟨h.1, hlength h.1, h.2⟩⟩
    · rw [normalizePhoneNG_of_dialled (dialled_trunk hdigits), spells_trunk_iff]

/-- Normalisation is consistent exactly where the space around the input is not behind
punctuation or no number is left, and the national number is not one of a landline. -/
theorem consistent_iff {raw : List Char} :
    Consistent allowInternational raw nsn ↔
      (cleanPhoneInput (trimmed isSpaceRune raw) = trimmed isSpaceRune (cleanPhoneInput raw) ∨
        ∀ number, ¬ Spells allowInternational (trimmed isSpaceRune (cleanPhoneInput raw))
          number) ∧
        ¬ (isAllDigits nsn = true ∧ landline nsn = true) := by
  rw [← punctuation_iff, ← @spellings_iff allowInternational nsn]
  constructor
  · exact fun h => ⟨h.punctuation, h.spellings⟩
  · rintro ⟨hpunctuation, hspellings⟩
    refine ⟨fun number h => ?_, fun number h => ?_, hpunctuation, hspellings⟩
    · exact (normalizePhoneNG_ok_iff.mp h).e164
    · have hspells := normalizePhoneNG_ok_iff.mp h
      exact (normalizePhoneNG_of_dialled hspells.e164.dialled).mpr hspells.self

end

/-- A landline of Lagos with its country code and no plus. -/
theorem lagosLandline_inconsistent : ¬ ∀ (allowInternational : Bool) (raw nsn : List Char),
    Consistent allowInternational raw nsn := by
  intro h
  have hsame := (h false [] "12345678".toList).spellings rfl _ mem_cons_self
  exact absurd hsame (by decide)

end Bis.Gateway
