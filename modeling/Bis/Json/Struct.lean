import Bis.Json.Decimal
import Mathlib.Algebra.Group.Int.Defs

/-!
Objects and the structs they are decoded into. A Go struct takes the member
whose key is the tag of one of its fields, or that tag but for the case of its
letters. It skips the members that no field takes, and a field that no member
names keeps its value. A derived Rust struct takes exactly the names of its
fields, each once at most, and refuses the object if a field it needs is
missing.
-/

namespace Bis.Json

open List

/-! ### Go -/

/-- The smallest rune of those that differ from this one in case only. Two runes
outside of ASCII fold into it. -/
def foldRune (c : Char) : Char :=
  if c = 'ſ' then 'S' else if c = '\u212a' then 'K' else c.toUpper

def foldName (name : String) : List Char := name.toList.map foldRune

/-- The tag that takes a key: itself, or else the first that folds to the same. -/
def tagFor (tags : List String) (key : String) : Option String :=
  if key ∈ tags then some key else tags.find? fun tag => foldName tag == foldName key

variable {α β : Type*}

/-- The members one after the other; `assign` writes the field of a tag. -/
def decodeMembers (tags : List String) (assign : String → Value → α → Option α) :
    List (String × Value) → α → Option α
  | [], s => some s
  | (key, v) :: members, s =>
    match tagFor tags key with
    | none => decodeMembers tags assign members s
    | some tag => (assign tag v s).bind (decodeMembers tags assign members)

def decodeStruct (tags : List String) (assign : String → Value → α → Option α) (zero : α) :
    Value → Option α
  | .null => some zero
  | .object members => decodeMembers tags assign members zero
  | _ => none

/-- A value for a field of type `string`; `null` leaves what is there. -/
def goString (old : String) : Value → Option String
  | .null => some old
  | .string text => some text
  | _ => none

def goInt64 (old : Int) : Value → Option Int
  | .null => some old
  | .number n => n.toInt?.filter fun i => decide (-2 ^ 63 ≤ i ∧ i < 2 ^ 63)
  | _ => none

/-- The numbers that do not round to an infinity. How a number rounds is left out. -/
def goFloat64 (old : Rat) : Value → Option Rat
  | .null => some old
  | .number n =>
    let bound : Rat := (2 ^ 1024 - 2 ^ 970 : Int)
    if -bound < n.toRat ∧ n.toRat < bound then some n.toRat else none
  | _ => none

def goBool (old : Bool) : Value → Option Bool
  | .null => some old
  | .bool b => some b
  | _ => none

def goStrings : Value → Option (List String)
  | .null => some []
  | .array items => items.mapM (goString "")
  | _ => none

mutual

/-- A value that goes into an `interface{}`: no number in it rounds to an infinity. -/
def goInterface : Value → Bool
  | .number n => (goFloat64 0 (.number n)).isSome
  | .array items => goInterfaces items
  | .object members => goMembers members
  | _ => true

def goInterfaces : List Value → Bool
  | [] => true
  | item :: items => goInterface item && goInterfaces items

def goMembers : List (String × Value) → Bool
  | [] => true
  | (_, v) :: members => goInterface v && goMembers members

end

/-- A `map[string]interface{}`; `null` is the empty one. -/
def goMap : Value → Option (List (String × Value))
  | .null => some []
  | .object members => if goMembers members then some members else none
  | _ => none

variable {tags : List String} {assign : String → Value → α → Option α}
  {members : List (String × Value)}

variable {key tag field : String} {read : Value → Option β}

theorem decodeMembers_cons_of_none (v : Value) (members : List (String × Value)) (s : α)
    (h : tagFor tags key = none) :
    decodeMembers tags assign ((key, v) :: members) s = decodeMembers tags assign members s := by
  rw [decodeMembers, h]

theorem decodeMembers_cons_of_some (v : Value) (members : List (String × Value)) (s : α)
    (h : tagFor tags key = some tag) :
    decodeMembers tags assign ((key, v) :: members) s =
      (assign tag v s).bind (decodeMembers tags assign members) := by
  rw [decodeMembers, h]

/-- An object without a key of the struct leaves every field as it was. -/
theorem decodeMembers_of_foreign (s : α) (h : ∀ key ∈ members.map Prod.fst, tagFor tags key =
    none) :
    decodeMembers tags assign members s = some s := by
  induction members with
  | nil => rfl
  | cons first members ih =>
    obtain ⟨key, v⟩ := first
    rw [decodeMembers_cons_of_none v members s (h key mem_cons_self)]
    exact ih fun other hother => h other (mem_cons_of_mem _ hother)

/-- What decoding has brought about was brought about by the member of a field. -/
theorem exists_member_of_decodeMembers {P : α → Prop} {s t : α}
    (h : decodeMembers tags assign members s = some t) (hs : ¬ P s) (ht : P t) :
    ∃ key v tag before after, (key, v) ∈ members ∧ tagFor tags key = some tag ∧
      assign tag v before = some after ∧ ¬ P before ∧ P after := by
  induction members generalizing s with
  | nil =>
    cases h
    exact absurd ht hs
  | cons first members ih =>
    obtain ⟨key, v⟩ := first
    have hrest : ∀ {u : α}, ¬ P u → decodeMembers tags assign members u = some t →
        ∃ key' v' tag before after, (key', v') ∈ (key, v) :: members ∧
          tagFor tags key' = some tag ∧ assign tag v' before = some after ∧
            ¬ P before ∧ P after := by
      intro u hu hdecode
      obtain ⟨key', v', tag, before, after, hmem, hfound⟩ := ih hdecode hu
      exact ⟨key', v', tag, before, after, mem_cons_of_mem _ hmem, hfound⟩
    cases htag : tagFor tags key with
    | none =>
      rw [decodeMembers_cons_of_none v members s htag] at h
      exact hrest hs h
    | some tag =>
      rw [decodeMembers_cons_of_some v members s htag] at h
      obtain ⟨u, hassign, hdecode⟩ := Option.bind_eq_some_iff.mp h
      by_cases hu : P u
      · exact ⟨key, v, tag, s, u, mem_cons_self, htag, hassign, hs, hu⟩
      · exact hrest hu hdecode

/-- The object has a member for the tag with such a value. -/
def carries (tags : List String) (tag : String) (p : Value → Bool) : Value → Bool
  | .object members => members.any fun m => tagFor tags m.1 == some tag && p m.2
  | _ => false

theorem carries_of_mem {p : Value → Bool} {v : Value} (hmem : (key, v) ∈ members)
    (htag : tagFor tags key = some tag) (hp : p v = true) :
    carries tags tag p (.object members) = true :=
  any_eq_true.mpr ⟨(key, v), hmem, by simp [htag, hp]⟩

theorem goStrings_strings (texts : List String) :
    goStrings (.array (texts.map .string)) = some texts := by
  induction texts with
  | nil => rfl
  | cons text texts ih =>
    simp only [goStrings, map_cons, mapM_cons, goString] at ih ⊢
    rw [ih]
    rfl

/-! ### Rust -/

inductive DecodeError where
  | missing (field : String)
  | duplicate (field : String)
  | invalid (field : String)

def occurrences (field : String) (members : List (String × Value)) : List Value :=
  (members.filter fun m => m.1 == field).map Prod.snd

def requiredField (field : String) (read : Value → Option β) (members : List (String × Value)) :
    Except DecodeError β :=
  match occurrences field members with
  | [] => .error (.missing field)
  | [v] =>
    match read v with
    | some b => .ok b
    | none => .error (.invalid field)
  | _ => .error (.duplicate field)

/-- A field of type `Option`: `null` and absence are the same. -/
def optionalField (field : String) (read : Value → Option β) (members : List (String × Value)) :
    Except DecodeError (Option β) :=
  match occurrences field members with
  | [] => .ok none
  | [.null] => .ok none
  | [v] =>
    match read v with
    | some b => .ok (some b)
    | none => .error (.invalid field)
  | _ => .error (.duplicate field)

def rustString : Value → Option String
  | .string text => some text
  | _ => none

/-- A `u64`: an integer without sign, fraction or exponent that fits. -/
def rustU64 : Value → Option UInt64
  | .number n => (n.toInt?.filter fun i => decide (0 ≤ i ∧ i < 2 ^ 64)).map fun i =>
    UInt64.ofNat i.toNat
  | _ => none

def rustI64 : Value → Option Int64
  | .number n => (n.toInt?.filter fun i => decide (-2 ^ 63 ≤ i ∧ i < 2 ^ 63)).map Int64.ofInt
  | _ => none

def rustBool : Value → Option Bool
  | .bool b => some b
  | _ => none

theorem requiredField_missing (h : field ∉ members.map Prod.fst) :
    requiredField field read members = .error (.missing field) := by
  have hnone : occurrences field members = [] := by
    simp only [occurrences, map_eq_nil_iff, filter_eq_nil_iff, beq_iff_eq]
    rintro m hm rfl
    exact h (mem_map_of_mem hm)
  rw [requiredField, hnone]

theorem requiredField_of_occurrences {v : Value} {b : β} (h : occurrences field members = [v])
    (hread : read v = some b) : requiredField field read members = .ok b := by
  rw [requiredField, h]
  simp only [hread]

theorem rustU64_ofNat {n : Nat} (h : n < 2 ^ 64) :
    rustU64 (.number (.ofInt n)) = some (UInt64.ofNat n) := by
  have hfits : (0 : Int) ≤ n ∧ (n : Int) < 2 ^ 64 := ⟨Int.natCast_nonneg n, by exact_mod_cast h⟩
  rw [rustU64, Number.toInt?_ofInt, Option.filter_some, if_pos (decide_eq_true hfits)]
  rfl

theorem rustI64_toInt (i : Int64) : rustI64 (.number (.ofInt i.toInt)) = some i := by
  have hfits : -2 ^ 63 ≤ i.toInt ∧ i.toInt < 2 ^ 63 := ⟨i.le_toInt, i.toInt_lt⟩
  rw [rustI64, Number.toInt?_ofInt, Option.filter_some, if_pos (decide_eq_true hfits)]
  simp

end Bis.Json
