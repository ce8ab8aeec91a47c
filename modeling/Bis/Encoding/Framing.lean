import Mathlib.Data.List.Basic
import Mathlib.Data.List.TakeWhile

/-!
Fields written one after the other, and when they can be told apart again:
fields of one width, fields behind a separator that none of them contains, and
fields behind their length in a fixed number of symbols. A decimal number has one text.
-/

namespace Bis.Encoding

open List

variable {α : Type*}

/-! ### Fixed widths -/

variable {width n m : Nat}

/-- Symbols of one width that differ leave texts that differ. -/
theorem flatMap_injective {β : Type*} {code : α → List β}
    (hwidth : ∀ a, (code a).length = width + 1) (hcode : ∀ a b, code a = code b → a = b)
    {symbols symbols' : List α} (h : symbols.flatMap code = symbols'.flatMap code) :
    symbols = symbols' := by
  induction symbols generalizing symbols' with
  | nil =>
    cases symbols' with
    | nil => rfl
    | cons a rest =>
      have hlength := congrArg List.length h
      rw [flatMap_nil, flatMap_cons, length_append, hwidth] at hlength
      simp only [length_nil] at hlength
      omega
  | cons a rest ih =>
    cases symbols' with
    | nil =>
      have hlength := congrArg List.length h
      rw [flatMap_nil, flatMap_cons, length_append, hwidth] at hlength
      simp only [length_nil] at hlength
      omega
    | cons a' rest' =>
      rw [flatMap_cons, flatMap_cons] at h
      obtain ⟨hfirst, hrest⟩ := append_inj h ((hwidth a).trans (hwidth a').symm)
      rw [hcode a a' hfirst, ih hrest]

/-! ### Separators -/

/-- Every field behind a separator. -/
def separated (separator : α) (fields : List (List α)) : List α :=
  fields.flatMap fun field => separator :: field

variable {separator : α} {head head' tail tail' : List α} {fields fields' : List (List α)}

theorem append_separator_left (hhead : separator ∉ head) (hhead' : separator ∉ head')
    (h : head ++ separator :: tail = head' ++ separator :: tail') :
    head = head' ∧ tail = tail' := by
  induction head generalizing head' with
  | nil =>
    cases head' with
    | nil => exact ⟨rfl, (List.cons.inj h).2⟩
    | cons first rest =>
      have hfirst := (List.cons.inj h).1
      exact absurd (hfirst ▸ mem_cons_self) hhead'
  | cons first rest ih =>
    cases head' with
    | nil =>
      have hfirst := (List.cons.inj h).1
      exact absurd (hfirst ▸ mem_cons_self) hhead
    | cons first' rest' =>
      obtain ⟨rfl, hrest⟩ := List.cons.inj h
      have hsame := ih (fun hmem => hhead (mem_cons_of_mem _ hmem))
        (fun hmem => hhead' (mem_cons_of_mem _ hmem)) hrest
      exact ⟨congrArg (first :: ·) hsame.1, hsame.2⟩

theorem append_separator_right (htail : separator ∉ tail) (htail' : separator ∉ tail')
    (h : head ++ separator :: tail = head' ++ separator :: tail') :
    head = head' ∧ tail = tail' := by
  have hreverse := congrArg List.reverse h
  simp only [reverse_append, reverse_cons, append_assoc, singleton_append]
    at hreverse
  have hsame := append_separator_left (by simpa using htail) (by simpa using htail') hreverse
  exact ⟨reverse_injective hsame.2, reverse_injective hsame.1⟩

/-- Behind any text at all, a known number of separated fields is read back. -/
theorem append_separated (hlength : fields.length = fields'.length)
    (hfree : ∀ field ∈ fields, separator ∉ field) (hfree' : ∀ field ∈ fields', separator ∉ field)
    (h : head ++ separated separator fields = head' ++ separated separator fields') :
    head = head' ∧ fields = fields' := by
  induction fields generalizing head head' fields' with
  | nil =>
    obtain rfl := length_eq_zero_iff.mp hlength.symm
    exact ⟨by simpa [separated] using h, rfl⟩
  | cons field rest ih =>
    cases fields' with
    | nil => cases hlength
    | cons field' rest' =>
      have hgrouped : (head ++ separator :: field) ++ separated separator rest =
          (head' ++ separator :: field') ++ separated separator rest' := by
        simpa [separated] using h
      obtain ⟨hfront, hrest⟩ := ih (Nat.succ.inj hlength)
        (fun other hmem => hfree other (mem_cons_of_mem _ hmem))
        (fun other hmem => hfree' other (mem_cons_of_mem _ hmem)) hgrouped
      obtain ⟨hhead, hfield⟩ := append_separator_right (hfree field mem_cons_self)
        (hfree' field' mem_cons_self) hfront
      exact ⟨hhead, by rw [hfield, hrest]⟩

/-! ### Ends -/

/-- Without the symbols at either end that satisfy `p`. -/
def trimmed (p : α → Bool) (text : List α) : List α :=
  ((text.dropWhile p).reverse.dropWhile p).reverse

variable {p : α → Bool} {text : List α} {sep : α}

theorem dropWhile_of_head (h : ∀ a ∈ text.head?, p a = false) : text.dropWhile p = text := by
  cases text with
  | nil => rfl
  | cons a text => exact dropWhile_cons_of_neg (by simp [h a rfl])

theorem dropWhile_of_none (h : ∀ a ∈ text, p a = false) : text.dropWhile p = text :=
  dropWhile_of_head fun a ha => h a (mem_of_head? ha)

theorem exists_trimmed (p : α → Bool) (text : List α) :
    ∃ front back, text = front ++ trimmed p text ++ back ∧ (∀ a ∈ front, p a) ∧
      ∀ a ∈ back, p a := by
  refine ⟨text.takeWhile p, ((text.dropWhile p).reverse.takeWhile p).reverse, ?_, ?_, ?_⟩
  · rw [append_assoc]
    unfold trimmed
    rw [← reverse_append, takeWhile_append_dropWhile, reverse_reverse,
      takeWhile_append_dropWhile]
  · exact fun a ha => mem_takeWhile_imp ha
  · exact fun a ha => mem_takeWhile_imp (mem_reverse.mp ha)

theorem trimmed_append {p : α → Bool} {front text back : List α} (hfront : ∀ a ∈ front, p a)
    (hback : ∀ a ∈ back, p a) (h : ∀ a ∈ text, p a = false) :
    trimmed p (front ++ text ++ back) = text := by
  have hlast : back.dropWhile p = [] := dropWhile_eq_nil_iff.mpr hback
  unfold trimmed
  rw [append_assoc, dropWhile_append_of_pos hfront]
  cases text with
  | nil => rw [nil_append, hlast]; rfl
  | cons a text =>
    rw [cons_append, dropWhile_cons_of_neg (by simp [h a]), ← cons_append,
      reverse_append, dropWhile_append_of_pos (by simpa using hback),
      dropWhile_of_none fun b hb => h b (mem_reverse.mp hb), reverse_reverse]

theorem trimmed_of_none (h : ∀ a ∈ text, p a = false) : trimmed p text = text := by
  have hself := @trimmed_append α p [] text [] (by simp) (by simp) h
  simpa using hself

theorem mem_of_mem_trimmed {a : α} (h : a ∈ trimmed p text) : a ∈ text := by
  obtain ⟨front, back, heq, _⟩ := exists_trimmed p text
  rw [heq]
  exact mem_append_left _ (mem_append_right _ h)

/-- A text that has been trimmed has nothing to trim at either end. -/
theorem trimmed_ends (p : α → Bool) (text : List α) :
    (∀ a ∈ (trimmed p text).head?, p a = false) ∧
      ∀ a ∈ (trimmed p text).getLast?, p a = false := by
  have hhead (text : List α) : ∀ a ∈ (text.dropWhile p).head?, p a = false := by
    intro a ha
    have hnot := head?_dropWhile_not p text
    rw [Option.mem_def.mp ha] at hnot
    exact hnot
  constructor
  · intro a ha
    have hfront : trimmed p text <+: text.dropWhile p := by
      have hback := dropWhile_suffix (l := (text.dropWhile p).reverse) p
      rw [← reverse_reverse (text.dropWhile p)]
      exact reverse_prefix.mpr hback
    obtain ⟨rest, hrest⟩ := hfront
    apply hhead text
    rw [← hrest, head?_append, Option.mem_def.mp ha]
    rfl
  · intro a ha
    apply hhead (text.dropWhile p).reverse
    rw [← getLast?_reverse]
    exact ha

theorem trimmed_eq_self_iff :
    trimmed p text = text ↔
      (∀ a ∈ text.head?, p a = false) ∧ ∀ a ∈ text.getLast?, p a = false := by
  constructor
  · intro h
    rw [← h]
    exact trimmed_ends p text
  · rintro ⟨hfirst, hlast⟩
    unfold trimmed
    rw [dropWhile_of_head hfirst, dropWhile_of_head (by rwa [head?_reverse]),
      reverse_reverse]

/-! ### Pieces -/

theorem forall_mem_intercalate {P : α → Prop} {sep : List α} (hsep : ∀ a ∈ sep, P a) :
    ∀ {pieces : List (List α)}, (∀ piece ∈ pieces, ∀ a ∈ piece, P a) →
      ∀ a ∈ sep.intercalate pieces, P a
  | [], _ => by simp
  | [piece], h => by simpa using h
  | piece :: next :: rest, h => by
    have hrest := forall_mem_intercalate hsep fun other hother =>
      h other (mem_cons_of_mem piece hother)
    rw [intercalate_cons_cons]
    intro a ha
    rcases mem_append.mp ha with ha | ha
    · rcases mem_append.mp ha with ha | ha
      · exact h piece mem_cons_self a ha
      · exact hsep a ha
    · exact hrest a ha

/-- What holds of the separator and of every piece holds of the text. -/
theorem forall_of_splitOn [BEq α] [LawfulBEq α] {P : α → Prop} (hsep : P sep)
    (h : ∀ piece ∈ text.splitOn sep, ∀ a ∈ piece, P a) : ∀ a ∈ text, P a := by
  have hjoin : [sep].intercalate (text.splitOn sep) = text := intercalate_splitOn sep
  rw [← hjoin]
  exact forall_mem_intercalate (by simpa using hsep) h

theorem not_mem_of_mem_splitOn [BEq α] [LawfulBEq α] : ∀ piece ∈ text.splitOn sep, sep ∉ piece := by
  induction text with
  | nil => simp
  | cons a rest ih =>
    rw [splitOn_cons_eq_if_modifyHead]
    split
    next => simpa using ih
    next hne =>
      cases hsplit : rest.splitOn sep with
      | nil => simp
      | cons first others =>
        rw [hsplit] at ih
        simp only [modifyHead_cons, forall_mem_cons] at ih ⊢
        refine ⟨fun hmem => ?_, ih.2⟩
        rcases mem_cons.mp hmem with heq | hmem
        · exact hne (beq_iff_eq.mpr heq.symm)
        · exact ih.1 hmem

/-- At most `n` pieces, the last of which may have the separator in it. -/
def splitn [DecidableEq α] : Nat → α → List α → List (List α)
  | 0, _, _ => []
  | 1, _, text => [text]
  | n + 2, sep, text =>
    match text.dropWhile (· ≠ sep) with
    | [] => [text]
    | _ :: rest => text.takeWhile (· ≠ sep) :: splitn (n + 1) sep rest

theorem splitn_append [DecidableEq α] {first rest : List α} (h : sep ∉ first) :
    splitn (n + 2) sep (first ++ sep :: rest) =
      first :: splitn (n + 1) sep rest := by
  have hpass : ∀ a ∈ first, decide (a ≠ sep) = true := fun a ha => by
    simpa using fun heq : a = sep => h (heq ▸ ha)
  conv_lhs => unfold splitn
  rw [dropWhile_append_of_pos hpass, takeWhile_append_of_pos hpass]
  simp

theorem splitn_two [DecidableEq α] {first second : List α} (h : splitn 2 sep text = [first,
    second]) :
    sep ∉ first ∧ ∃ a, text = first ++ a :: second := by
  unfold splitn at h
  split at h
  next => cases h
  next a rest hdrop =>
    cases h
    refine ⟨fun hmem => by simpa using mem_takeWhile_imp hmem, a, ?_⟩
    rw [← hdrop, takeWhile_append_dropWhile]

/-! ### Length prefixes -/

/-- Every field behind its length. -/
def prefixed (frame : Nat → List α) (fields : List (List α)) : List α :=
  fields.flatMap fun field => frame field.length ++ field

/-- Lengths of a fixed width that tell the lengths below a bound apart make the
fields below it readable. -/
theorem prefixed_injective {frame : Nat → List α} {bound : Nat}
    (hwidth : ∀ n, (frame n).length = width)
    (hframe : ∀ m n, m < bound → n < bound → frame m = frame n → m = n)
    (hlength : fields.length = fields'.length) (hbound : ∀ field ∈ fields, field.length < bound)
    (hbound' : ∀ field ∈ fields', field.length < bound)
    (h : prefixed frame fields = prefixed frame fields') : fields = fields' := by
  induction fields generalizing fields' with
  | nil => exact (length_eq_zero_iff.mp hlength.symm).symm
  | cons field rest ih =>
    cases fields' with
    | nil => cases hlength
    | cons field' rest' =>
      have hgrouped : frame field.length ++ (field ++ prefixed frame rest) =
          frame field'.length ++ (field' ++ prefixed frame rest') := by
        simpa [prefixed] using h
      obtain ⟨hframes, hbodies⟩ :=
        append_inj hgrouped ((hwidth _).trans (hwidth _).symm)
      have hsize := hframe _ _ (hbound field mem_cons_self)
        (hbound' field' mem_cons_self) hframes
      obtain ⟨rfl, hrest⟩ := append_inj hbodies hsize
      have htail := ih (Nat.succ.inj hlength)
        (fun other hmem => hbound other (mem_cons_of_mem _ hmem))
        (fun other hmem => hbound' other (mem_cons_of_mem _ hmem)) hrest
      rw [htail]

/-! ### Decimal numbers -/

theorem digits_injective (h : Nat.toDigits 10 m = Nat.toDigits 10 n) : m = n := by
  have hread := congrArg (Nat.ofDigitChars 10 · 0) h
  simpa only [Nat.ofDigitChars_ten_toDigits] using hread

theorem toString_nat_injective (h : toString m = toString n) : m = n := by
  have hdigits := congrArg String.toList h
  change m.repr.toList = n.repr.toList at hdigits
  rw [Nat.toList_repr, Nat.toList_repr] at hdigits
  exact digits_injective hdigits

end Bis.Encoding
