import EventLedger.Python.Json

namespace EventLedger.Python.Json

/-- This query reads a member of an object. -/
def member (name : String) : Json → Option Json
  | .obj entries => entries.lookup name
  | _ => none

/-- A value is false in a condition when it is zero or empty. -/
def truthy : Json → Bool
  | .null => false
  | .bool value => value
  | .int value => value != 0
  | .float value => value != .finite 0
  | .str value => value != ""
  | .arr items => !items.isEmpty
  | .obj entries => !entries.isEmpty

mutual

/-- The web framework writes its responses without numbers that are not finite. -/
def writable : Json → Bool
  | .float (.finite _) => true
  | .float _ => false
  | .arr items => writableItems items
  | .obj entries => writableEntries entries
  | _ => true

def writableItems : List Json → Bool
  | [] => true
  | item :: rest => writable item && writableItems rest

def writableEntries : List (String × Json) → Bool
  | [] => true
  | (_, value) :: rest => writable value && writableEntries rest

end

@[simp] theorem writable_null : writable .null = true := rfl

@[simp] theorem writable_bool (value : Bool) : (bool value).writable = true := rfl

@[simp] theorem writable_int (value : Int) : (int value).writable = true := rfl

@[simp] theorem writable_str (value : String) : (str value).writable = true := rfl

/-- A list is written when each of its items is. -/
@[simp] theorem writable_arr (items : List Json) :
    (arr items).writable = true ↔ ∀ item ∈ items, item.writable = true := by
  show writableItems items = true ↔ _
  induction items with
  | nil => simp [writableItems]
  | cons item rest ih => simp [writableItems, ih]

/-- An object is written when each of its values is. -/
@[simp] theorem writable_obj (entries : List (String × Json)) :
    (obj entries).writable = true ↔ ∀ entry ∈ entries, entry.2.writable = true := by
  show writableEntries entries = true ↔ _
  induction entries with
  | nil => simp [writableEntries]
  | cons entry rest ih =>
      obtain ⟨name, value⟩ := entry
      simp [writableEntries, ih]

end EventLedger.Python.Json
