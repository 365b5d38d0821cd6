import Mathlib.Data.List.Nodup
import Mathlib.Data.Rat.Defs

namespace EventLedger.Python

/-- A float is a finite rational, an infinity or not a number. -/
inductive PyFloat where
  | finite (value : Rat)
  | infinite (negative : Bool)
  | nan
  deriving DecidableEq

/-- A JSON value as the parser returns it. -/
inductive Json where
  | null
  | bool (value : Bool)
  | int (value : Int)
  | float (value : PyFloat)
  | str (value : String)
  | arr (items : List Json)
  | obj (entries : List (String × Json))

namespace Json

/-- Booleans and integers compare as numbers. -/
def number : Json → Option PyFloat
  | .bool value => some (.finite (if value then 1 else 0))
  | .int value => some (.finite value)
  | .float value => some value
  | _ => none

mutual

/-- This function is equality inside containers, which take the one not-a-number object of the parser
as equal to itself. -/
def pyEq : Json → Json → Bool
  | .null, .null => true
  | .str left, .str right => left == right
  | .arr left, .arr right => pyEqItems left right
  | .obj left, .obj right => left.length == right.length && pyEqEntries left right
  | left, right =>
      match left.number, right.number with
      | some first, some second => first == second
      | _, _ => false

def pyEqItems : List Json → List Json → Bool
  | [], [] => true
  | left :: lefts, right :: rights => pyEq left right && pyEqItems lefts rights
  | _, _ => false

/-- Each entry of the first object needs an equal entry under the same key of the second. -/
def pyEqEntries : List (String × Json) → List (String × Json) → Bool
  | [], _ => true
  | (key, left) :: rest, others =>
      (match others.lookup key with
        | some right => pyEq left right
        | none => false) && pyEqEntries rest others

end

mutual

/-- The parser gives each object distinct keys. -/
def Parsed : Json → Prop
  | .arr items => ParsedItems items
  | .obj entries => (entries.map Prod.fst).Nodup ∧ ParsedEntries entries
  | _ => True

def ParsedItems : List Json → Prop
  | [] => True
  | item :: rest => Parsed item ∧ ParsedItems rest

def ParsedEntries : List (String × Json) → Prop
  | [] => True
  | (_, value) :: rest => Parsed value ∧ ParsedEntries rest

end

/-- A lookup under a distinct key finds its own value. -/
theorem lookup_of_mem {entries : List (String × Json)} (distinct : (entries.map Prod.fst).Nodup)
    {key : String} {value : Json} (member : (key, value) ∈ entries) :
    entries.lookup key = some value := by
  induction entries with
  | nil => cases member
  | cons entry rest ih =>
      obtain ⟨first, content⟩ := entry
      simp only [List.map_cons, List.nodup_cons] at distinct
      rcases List.mem_cons.mp member with same | later
      · obtain ⟨rfl, rfl⟩ := Prod.mk.inj same
        simp
      · have different : key ≠ first := by
          rintro rfl
          exact distinct.1 (List.mem_map.mpr ⟨_, later, rfl⟩)
        rw [List.lookup_cons, beq_false_of_ne different]
        exact ih distinct.2 later

mutual

/-- A parsed value equals itself. -/
theorem pyEq_refl : (value : Json) → value.Parsed → pyEq value value = true
  | .null, _ => rfl
  | .bool value, _ => by simp [pyEq, number]
  | .int value, _ => by simp [pyEq, number]
  | .float value, _ => by simp [pyEq, number]
  | .str value, _ => by simp [pyEq]
  | .arr items, parsed => pyEqItems_refl items parsed
  | .obj entries, ⟨distinct, parsed⟩ => by
      have equal := pyEqEntries_refl entries entries parsed fun _ _ => lookup_of_mem distinct
      simp [pyEq, equal]

theorem pyEqItems_refl : (items : List Json) → ParsedItems items → pyEqItems items items = true
  | [], _ => rfl
  | item :: rest, ⟨first, others⟩ => by
      simp only [pyEqItems, pyEq_refl item first, pyEqItems_refl rest others, Bool.and_self]

/-- Entries that are found in an object equal that object's entries. -/
theorem pyEqEntries_refl : (entries others : List (String × Json)) → ParsedEntries entries →
    (∀ key value, (key, value) ∈ entries → others.lookup key = some value) →
    pyEqEntries entries others = true
  | [], _, _, _ => rfl
  | (key, value) :: rest, others, ⟨first, later⟩, found => by
      have own := found key value List.mem_cons_self
      have tail := pyEqEntries_refl rest others later fun key value member =>
        found key value (List.mem_cons_of_mem _ member)
      simp only [pyEqEntries, own, pyEq_refl value first, tail, Bool.and_self]

end

/-- An empty object is false in a condition. -/
def orNone : Option (List (String × Json)) → Option (List (String × Json))
  | some [] => none
  | value => value

/-- Two optional objects are equal when both are absent or both are equal objects. -/
def pyEqOption : Option (List (String × Json)) → Option (List (String × Json)) → Bool
  | none, none => true
  | some left, some right => pyEq (.obj left) (.obj right)
  | _, _ => false

/-- A stored object equals the written one unless it is empty. -/
theorem pyEqOption_orNone {value : Option (List (String × Json))}
    (parsed : ∀ entries ∈ value, (Json.obj entries).Parsed) :
    pyEqOption (orNone value) value = true ↔ value ≠ some [] := by
  match value, parsed with
  | none, _ => simp [orNone, pyEqOption]
  | some [], _ => simp [orNone, pyEqOption]
  | some (entry :: rest), parsed =>
      simp [orNone, pyEqOption, pyEq_refl _ (parsed _ rfl)]

end Json
end EventLedger.Python
