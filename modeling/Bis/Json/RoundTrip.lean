import Bis.Json.Syntax

/-!
What an encoder writes, the reader gives back: first the characters of a
string, then numbers, then values by induction on the value.
-/

namespace Bis.Json

open List

variable {lone : Option Char} {escape : Escape}

/-! ### Strings -/

theorem stringBody_quote (rest : List Char) : stringBody lone ('"' :: rest) = some ([], rest) := rfl

theorem stringBody_escaped (text rest : List Char) :
    stringBody lone (text.flatMap escape.write ++ '"' :: rest) = some (text, rest) := by
  induction text with
  | nil => exact stringBody_quote rest
  | cons c text ih =>
    rw [flatMap_cons, append_assoc, escape.read_write, ih]
    rfl

theorem quoted_append (text : String) (rest : List Char) :
    escape.quoted text ++ rest = '"' :: (text.toList.flatMap escape.write ++ '"' :: rest) := by
  simp [Escape.quoted]

/-! ### Numbers -/

variable {n : Number} {c : Char} {rest : List Char}

theorem isNumberChar_of_mem (h : c ∈ n.val) : isNumberChar c = true := by
  have hnumber := n.property
  simp only [isNumber, Bool.and_eq_true, all_eq_true] at hnumber
  exact hnumber.1.1.1 c h

theorem head_of_takeWhile {p : Char → Bool} {text front : List Char}
    (h : text.takeWhile p = c :: front) : ∃ rest, text = c :: rest := by
  have hparts := takeWhile_append_dropWhile (p := p) (l := text)
  rw [h] at hparts
  exact ⟨_, hparts.symm⟩

theorem splitExponent_fst (text : List Char) :
    (splitExponent text).1 = text.takeWhile fun c => !isExponentMark c := by
  unfold splitExponent
  split <;> rfl

theorem splitFraction_fst (text : List Char) :
    (splitFraction text).1 = text.takeWhile (· != '.') := by
  unfold splitFraction
  split <;> rfl

/-- A number starts with a sign or a digit. -/
theorem number_head (n : Number) : ∃ c rest, n.val = c :: rest ∧ (c = '-' ∨ c.isDigit = true) := by
  have hnumber := n.property
  simp only [isNumber, isInteger, isDigits, Bool.and_eq_true, all_eq_true] at hnumber
  have hwhole := hnumber.1.1.2.1
  by_cases hsign : n.val.head? = some '-'
  · cases htext : n.val with
    | nil => simp [htext] at hsign
    | cons c rest =>
      rw [htext, head?_cons] at hsign
      exact ⟨c, rest, rfl, .inl (Option.some.inj hsign)⟩
  · simp only [splitNumber, if_neg hsign, splitExponent_fst, splitFraction_fst] at hwhole
    cases hdigits : (n.val.takeWhile fun c => !isExponentMark c).takeWhile (· != '.') with
    | nil => simp [hdigits] at hwhole
    | cons c digits =>
      obtain ⟨front, hfront⟩ := head_of_takeWhile hdigits
      obtain ⟨rest, hrest⟩ := head_of_takeWhile hfront
      refine ⟨c, rest, hrest, .inr ?_⟩
      exact hwhole.2 c (by rw [hdigits]; exact mem_cons_self)

/-- What may follow a number without being taken for a part of it. -/
def EndsNumber (rest : List Char) : Prop := ∀ c ∈ rest.head?, isNumberChar c = false

theorem takeWhile_number (h : EndsNumber rest) :
    (n.val ++ rest).takeWhile isNumberChar = n.val ∧
      (n.val ++ rest).dropWhile isNumberChar = rest := by
  have hall : ∀ c ∈ n.val, isNumberChar c = true := fun c hc => isNumberChar_of_mem hc
  rw [takeWhile_append_of_pos hall, dropWhile_append_of_pos hall]
  cases rest with
  | nil => simp
  | cons c rest =>
    have hc := h c rfl
    simp [hc]

theorem numberText_number (h : EndsNumber rest) :
    numberText (n.val ++ rest) = some (.number n, rest) := by
  obtain ⟨htake, hdrop⟩ := takeWhile_number (n := n) h
  simp only [numberText, htake, hdrop, n.property, dif_pos]

/-! ### Values -/

theorem skipSpace_cons (rest : List Char) (h : isSpace c = false) :
    skipSpace (c :: rest) = c :: rest := by
  simp [skipSpace, h]

theorem isSpace_of_isDigit (h : c = '-' ∨ c.isDigit = true) : isSpace c = false := by
  rcases h with rfl | h
  · rfl
  · simp only [isSpace, Bool.or_eq_false_iff, beq_eq_false_iff_ne]
    refine ⟨⟨⟨?_, ?_⟩, ?_⟩, ?_⟩ <;> (rintro rfl; exact absurd h (by decide))

theorem value_number (fuel : Nat) (h : EndsNumber rest) :
    value lone (fuel + 1) (n.val ++ rest) = some (.number n, rest) := by
  obtain ⟨c, digits, htext, hc⟩ := number_head n
  have hread := numberText_number (n := n) h
  rw [htext, cons_append] at hread ⊢
  unfold value
  rw [skipSpace_cons _ (isSpace_of_isDigit hc)]
  split
  case h_7 => exact hread
  all_goals
    next heq =>
      obtain rfl := (List.cons.inj heq).1
      exact absurd hc (by decide)

theorem endsNumber_cons (rest : List Char) (h : isNumberChar c = false) :
    EndsNumber (c :: rest) := by
  intro first hfirst
  cases hfirst
  exact h

theorem render_head (escape : Escape) (v : Value) :
    ∃ c rest, render escape v = c :: rest ∧ isSpace c = false ∧ c ≠ ']' := by
  cases v with
  | null => exact ⟨_, _, by rw [render], rfl, by decide⟩
  | bool b => cases b <;> exact ⟨_, _, by rw [render], rfl, by decide⟩
  | number n =>
    obtain ⟨c, rest, htext, hc⟩ := number_head n
    refine ⟨c, rest, by rw [render, htext], isSpace_of_isDigit hc, ?_⟩
    rintro rfl
    exact absurd hc (by decide)
  | string text => exact ⟨_, _, by rw [render, Escape.quoted], rfl, by decide⟩
  | array items => cases items <;> exact ⟨_, _, by rw [render], rfl, by decide⟩
  | object members =>
    rcases members with _ | ⟨⟨key, item⟩, members⟩ <;>
      exact ⟨_, _, by rw [render], rfl, by decide⟩

theorem renderItems_ends (items : List Value) (rest : List Char) :
    EndsNumber (renderItems escape items ++ rest) := by
  cases items <;> (rw [renderItems]; exact endsNumber_cons _ rfl)

theorem renderMembers_ends (members : List (String × Value)) (rest : List Char) :
    EndsNumber (renderMembers escape members ++ rest) := by
  rcases members with _ | ⟨⟨key, item⟩, members⟩ <;>
    (rw [renderMembers]; exact endsNumber_cons _ rfl)

mutual

/-- The fuel that reading a value takes. -/
def size : Value → Nat
  | .null | .bool _ | .number _ | .string _ => 1
  | .array [] | .object [] => 1
  | .array (item :: items) => 1 + size item + sizeItems items
  | .object ((_, item) :: members) => 2 + size item + sizeMembers members

def sizeItems : List Value → Nat
  | [] => 1
  | item :: items => 1 + size item + sizeItems items

def sizeMembers : List (String × Value) → Nat
  | [] => 1
  | (_, item) :: members => 2 + size item + sizeMembers members

end

theorem size_pos (v : Value) : 0 < size v := by
  cases v with
  | null | bool | number | string => rw [size]; omega
  | array items => cases items <;> rw [size] <;> omega
  | object members => rcases members with _ | ⟨⟨key, item⟩, members⟩ <;> rw [size] <;> omega

theorem member_render (key : String) {item : Value} {fuel : Nat}
    (hitem : value lone fuel (render escape item ++ rest) = some (item, rest)) :
    member lone (fuel + 1) (escape.quoted key ++ ':' :: (render escape item ++ rest)) =
      some ((key, item), rest) := by
  rw [quoted_append]
  simp only [member]
  rw [skipSpace_cons _ rfl]
  simp only [stringBody_escaped, Option.bind_eq_bind, Option.bind_some, String.ofList_toList]
  rw [skipSpace_cons _ rfl]
  simp only [hitem, Option.bind_some]

mutual

theorem value_render : ∀ (v : Value) (fuel : Nat) (rest : List Char), size v ≤ fuel →
    EndsNumber rest → value lone fuel (render escape v ++ rest) = some (v, rest)
  | v, 0, _, hfuel, _ => absurd hfuel (Nat.not_le.mpr (size_pos v))
  | .null, fuel + 1, rest, _, _ => by
    simp only [render, value, cons_append, nil_append]
    rw [skipSpace_cons _ rfl]
    rfl
  | .bool true, fuel + 1, rest, _, _ => by
    simp only [render, value, cons_append, nil_append]
    rw [skipSpace_cons _ rfl]
    rfl
  | .bool false, fuel + 1, rest, _, _ => by
    simp only [render, value, cons_append, nil_append]
    rw [skipSpace_cons _ rfl]
    rfl
  | .number n, fuel + 1, rest, _, hrest => by
    rw [render]
    exact value_number fuel hrest
  | .string text, fuel + 1, rest, _, _ => by
    rw [render, quoted_append]
    simp only [value]
    rw [skipSpace_cons _ rfl]
    simp only [stringBody_escaped, Option.map_some, String.ofList_toList]
  | .array [], fuel + 1, rest, _, _ => by
    simp only [render, value, cons_append, nil_append]
    rw [skipSpace_cons _ rfl]
    simp only []
    rw [skipSpace_cons _ rfl]
    rfl
  | .array (item :: items), fuel + 1, rest, hfuel, _ => by
    rw [size] at hfuel
    have hitem := value_render item fuel (renderItems escape items ++ rest) (by omega)
      (renderItems_ends items rest)
    have hitems := moreItems_render items fuel rest (by omega)
    obtain ⟨c, tail, hhead, hspace, hclose⟩ := render_head escape item
    simp only [render, value, cons_append, append_assoc]
    rw [skipSpace_cons _ rfl]
    simp only [hhead, cons_append] at hitem ⊢
    rw [skipSpace_cons _ hspace]
    split
    · next heq => exact absurd (List.cons.inj heq).1 hclose
    · simp only [hitem, hitems, Option.bind_eq_bind, Option.bind_some]
  | .object [], fuel + 1, rest, _, _ => by
    simp only [render, value, cons_append, nil_append]
    rw [skipSpace_cons _ rfl]
    simp only []
    rw [skipSpace_cons _ rfl]
    rfl
  | .object ((key, item) :: members), fuel + 1, rest, hfuel, _ => by
    rw [size] at hfuel
    obtain ⟨less, rfl⟩ : ∃ less, fuel = less + 1 := ⟨fuel - 1, by omega⟩
    have hitem := value_render item less (renderMembers escape members ++ rest) (by omega)
      (renderMembers_ends members rest)
    have hmember := member_render key hitem
    have hmembers := moreMembers_render members (less + 1) rest (by omega)
    simp only [render, value, cons_append, append_assoc]
    rw [skipSpace_cons _ rfl]
    simp only [quoted_append] at hmember ⊢
    rw [skipSpace_cons _ rfl]
    split
    · next heq => exact absurd (List.cons.inj heq).1 (by decide)
    · simp only [hmember, hmembers, Option.bind_eq_bind, Option.bind_some]

theorem moreItems_render : ∀ (items : List Value) (fuel : Nat) (rest : List Char),
    sizeItems items ≤ fuel →
      moreItems lone fuel (renderItems escape items ++ rest) = some (items, rest)
  | [], fuel, rest, hfuel => by
    rw [sizeItems] at hfuel
    obtain ⟨less, rfl⟩ : ∃ less, fuel = less + 1 := ⟨fuel - 1, by omega⟩
    simp only [renderItems, moreItems, cons_append, nil_append]
    rw [skipSpace_cons _ rfl]
    rfl
  | item :: items, fuel, rest, hfuel => by
    rw [sizeItems] at hfuel
    obtain ⟨less, rfl⟩ : ∃ less, fuel = less + 1 := ⟨fuel - 1, by omega⟩
    have hitem := value_render item less (renderItems escape items ++ rest) (by omega)
      (renderItems_ends items rest)
    have hitems := moreItems_render items less rest (by omega)
    simp only [renderItems, moreItems, cons_append, append_assoc]
    rw [skipSpace_cons _ rfl]
    simp only [hitem, hitems, Option.bind_eq_bind, Option.bind_some]

theorem moreMembers_render : ∀ (members : List (String × Value)) (fuel : Nat) (rest : List Char),
    sizeMembers members ≤ fuel →
      moreMembers lone fuel (renderMembers escape members ++ rest) = some (members, rest)
  | [], fuel, rest, hfuel => by
    rw [sizeMembers] at hfuel
    obtain ⟨less, rfl⟩ : ∃ less, fuel = less + 1 := ⟨fuel - 1, by omega⟩
    simp only [renderMembers, moreMembers, cons_append, nil_append]
    rw [skipSpace_cons _ rfl]
    rfl
  | (key, item) :: members, fuel, rest, hfuel => by
    rw [sizeMembers] at hfuel
    obtain ⟨mid, rfl⟩ : ∃ mid, fuel = mid + 1 := ⟨fuel - 1, by omega⟩
    have hmember : member lone mid
        (escape.quoted key ++ ':' ::
          (render escape item ++ (renderMembers escape members ++ rest))) =
        some ((key, item), renderMembers escape members ++ rest) := by
      obtain ⟨less, rfl⟩ : ∃ less, mid = less + 1 := ⟨mid - 1, by omega⟩
      exact member_render key (value_render item less _ (by omega) (renderMembers_ends members rest))
    have hmembers := moreMembers_render members mid rest (by omega)
    simp only [renderMembers, moreMembers, cons_append, append_assoc]
    rw [skipSpace_cons _ rfl]
    simp only [hmember, hmembers, Option.bind_eq_bind, Option.bind_some]

end

mutual

theorem size_le_length (escape : Escape) : ∀ v : Value, size v ≤ (render escape v).length
  | .null => by simp [size, render]
  | .bool true => by simp [size, render]
  | .bool false => by simp [size, render]
  | .number n => by
    obtain ⟨c, rest, htext, _⟩ := number_head n
    simp [size, render, htext]
  | .string text => by simp [size, render, Escape.quoted]
  | .array [] => by simp [size, render]
  | .array (item :: items) => by
    have hitem := size_le_length escape item
    have hitems := sizeItems_le_length escape items
    simp only [size, render, length_cons, length_append]
    omega
  | .object [] => by simp [size, render]
  | .object ((key, item) :: members) => by
    have hitem := size_le_length escape item
    have hmembers := sizeMembers_le_length escape members
    simp only [size, render, length_cons, length_append]
    omega

theorem sizeItems_le_length (escape : Escape) : ∀ items : List Value,
    sizeItems items ≤ (renderItems escape items).length
  | [] => by simp [sizeItems, renderItems]
  | item :: items => by
    have hitem := size_le_length escape item
    have hitems := sizeItems_le_length escape items
    simp only [sizeItems, renderItems, length_cons, length_append]
    omega

theorem sizeMembers_le_length (escape : Escape) : ∀ members : List (String × Value),
    sizeMembers members ≤ (renderMembers escape members).length
  | [] => by simp [sizeMembers, renderMembers]
  | (key, item) :: members => by
    have hitem := size_le_length escape item
    have hmembers := sizeMembers_le_length escape members
    simp only [sizeMembers, renderMembers, length_cons, length_append]
    omega

end

/-- What is written is read as it was, and nothing of the text is left. -/
theorem readFirst_render (v : Value) : readFirst lone (render escape v) = some (v, []) := by
  have hsize := size_le_length escape v
  have hread : value lone ((render escape v).length + 1) (render escape v ++ []) = some (v, []) :=
    value_render v _ [] (by omega) (by simp [EndsNumber])
  rwa [append_nil] at hread

theorem read_render (v : Value) : read lone (render escape v) = some v := by
  simp [read, readFirst_render, skipSpace]

theorem render_injective {v w : Value} (h : render escape v = render escape w) : v = w := by
  have hread : read none (render escape v) = some v := read_render v
  rw [h, read_render] at hread
  exact (Option.some.inj hread).symm

end Bis.Json
