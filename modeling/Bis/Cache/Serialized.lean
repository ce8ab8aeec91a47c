import Bis.Pii.ForensicCursor

/-!
What becomes of a JavaScript value that is stored as JSON and read back. A date comes back
as the text of its time, an undefined member not at all, and a number that JSON cannot
write as something else. A value without any of these comes back as it was.
-/

namespace Bis.Cache

open Bis.Json Option
open Bis.Pii (stringify parseJson)

/-- A value that a query returns. A finite number is known by the way it is written, but
for the negative zero; a valid date by its ISO text. The names of an object differ. -/
inductive JsValue where
  | undefined
  | null
  | bool (b : Bool)
  | number (n : Number)
  | minusZero
  | notFinite
  | string (text : String)
  | date (iso : Option String)
  | array (items : List JsValue)
  | object (members : List (String × JsValue))

namespace JsValue

mutual

/-- The JSON value that `JSON.stringify` writes; it writes none for `undefined`. -/
def toJson : JsValue → Option Value
  | .undefined => none
  | .null | .notFinite | .date none => some .null
  | .bool b => some (.bool b)
  | .number n => some (.number n)
  | .minusZero => some (.number (.ofInt 0))
  | .string text => some (.string text)
  | .date (some iso) => some (.string iso)
  | .array items => some (.array (itemsJson items))
  | .object members => some (.object (membersJson members))

def itemsJson : List JsValue → List Value
  | [] => []
  | item :: items => (toJson item).getD .null :: itemsJson items

def membersJson : List (String × JsValue) → List (String × Value)
  | [] => []
  | (name, item) :: members =>
    match toJson item with
    | none => membersJson members
    | some v => (name, v) :: membersJson members

end

mutual

def ofJson : Value → JsValue
  | .null => .null
  | .bool b => .bool b
  | .number n => .number n
  | .string text => .string text
  | .array items => .array (ofItems items)
  | .object members => .object (ofMembers members)

def ofItems : List Value → List JsValue
  | [] => []
  | item :: items => ofJson item :: ofItems items

def ofMembers : List (String × Value) → List (String × JsValue)
  | [] => []
  | (name, item) :: members => (name, ofJson item) :: ofMembers members

end

/-- The text that Redis is given; nothing becomes the empty one. -/
def stored (v : JsValue) : String := (v.toJson.map stringify).getD ""

/-- `JSON.parse` -/
def parse (text : String) : Option JsValue := (parseJson text).map ofJson

mutual

/-- Nothing in the value but what JSON has. -/
def isPlain : JsValue → Bool
  | .null | .bool _ | .number _ | .string _ => true
  | .undefined | .minusZero | .notFinite | .date _ => false
  | .array items => arePlain items
  | .object members => membersPlain members

def arePlain : List JsValue → Bool
  | [] => true
  | item :: items => isPlain item && arePlain items

def membersPlain : List (String × JsValue) → Bool
  | [] => true
  | (_, item) :: members => isPlain item && membersPlain members

end

/-! ### There and back -/

theorem length_ofMembers : ∀ members : List (String × JsValue),
    (ofMembers (membersJson members)).length ≤ members.length
  | [] => le_rfl
  | (name, item) :: members => by
    have ih := length_ofMembers members
    unfold membersJson
    cases toJson item with
    | none => exact ih.trans (Nat.le_succ _)
    | some v => exact Nat.succ_le_succ ih

mutual

/-- Exactly the plain values come back as they were. -/
theorem ofJson_toJson_iff : ∀ v : JsValue, v.toJson.map ofJson = some v ↔ v.isPlain = true
  | .undefined => by simp [toJson, isPlain]
  | .null => by simp [toJson, ofJson, isPlain]
  | .bool b => by simp [toJson, ofJson, isPlain]
  | .number n => by simp [toJson, ofJson, isPlain]
  | .minusZero => by simp [toJson, ofJson, isPlain]
  | .notFinite => by simp [toJson, ofJson, isPlain]
  | .string text => by simp [toJson, ofJson, isPlain]
  | .date none => by simp [toJson, ofJson, isPlain]
  | .date (some iso) => by simp [toJson, ofJson, isPlain]
  | .array items => by
    have h := ofItems_itemsJson_iff items
    simp only [toJson, ofJson, isPlain, map_some, some.injEq, array.injEq]
    exact h
  | .object members => by
    have h := ofMembers_membersJson_iff members
    simp only [toJson, ofJson, isPlain, map_some, some.injEq, object.injEq]
    exact h

theorem ofItems_itemsJson_iff : ∀ items : List JsValue,
    ofItems (itemsJson items) = items ↔ arePlain items = true
  | [] => by simp [itemsJson, ofItems, arePlain]
  | item :: items => by
    have hitem := ofJson_toJson_iff item
    have hitems := ofItems_itemsJson_iff items
    simp only [itemsJson, ofItems, arePlain, List.cons.injEq, Bool.and_eq_true, hitems]
    refine and_congr_left fun _ => ?_
    rw [← hitem]
    cases item with
    | undefined => simp [toJson, ofJson]
    | date iso => cases iso <;> simp [toJson]
    | _ => simp [toJson]

theorem ofMembers_membersJson_iff : ∀ members : List (String × JsValue),
    ofMembers (membersJson members) = members ↔ membersPlain members = true
  | [] => by simp [membersJson, ofMembers, membersPlain]
  | (name, item) :: members => by
    have hitem := ofJson_toJson_iff item
    have hmembers := ofMembers_membersJson_iff members
    simp only [membersJson, membersPlain, Bool.and_eq_true, ← hitem]
    cases hjson : toJson item with
    | none =>
      -- A member that is left out is missed by the length.
      have hlength := length_ofMembers members
      constructor
      · intro h
        rw [h] at hlength
        exact absurd hlength (by simp)
      · rintro ⟨h, -⟩
        cases h
    | some v =>
      simp only [ofMembers, List.cons.injEq, Prod.mk.injEq, true_and, map_some,
        some.injEq, hmembers]

end

/-- A plain value is stored under a text that is read as the value. -/
theorem parse_stored {v : JsValue} (h : v.isPlain = true) : parse v.stored = some v := by
  have hback := (ofJson_toJson_iff v).mpr h
  obtain ⟨json, hjson, hof⟩ := map_eq_some_iff.mp hback
  have hread : parseJson (stringify json) = some json := by
    unfold parseJson stringify
    rw [String.toList_ofList, read_render]
  unfold parse stored
  rw [hjson, map_some, getD_some, hread, map_some, hof]

theorem stored_ne_empty {v : JsValue} (h : v.isPlain = true) : v.stored ≠ "" := by
  intro hempty
  have hparse := parse_stored h
  rw [hempty] at hparse
  cases hparse

theorem stored_undefined : JsValue.undefined.stored = "" := rfl

end JsValue

end Bis.Cache
