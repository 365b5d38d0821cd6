import Mathlib.Data.List.Basic

namespace EventLedger.Library

/-- A multi-dictionary lists its entries in order under the normal forms of their keys, and several
entries may share one. -/
structure MultiDict {κ φ : Type} (form : κ → φ) (β : Type) where
  entries : List (φ × β)

namespace MultiDict
variable {κ φ β : Type} {form : κ → φ}

def empty (form : κ → φ) (β : Type) : MultiDict form β := ⟨[]⟩

def ofList (items : List (κ × β)) : MultiDict form β :=
  ⟨items.map fun item => (form item.1, item.2)⟩

variable [DecidableEq φ]

/-- A read returns the first value of a key. -/
def get (dict : MultiDict form β) (key : κ) : Option β := dict.entries.lookup (form key)

/-- A write replaces the first entry of a key and drops the others, or else it adds an entry. -/
def setEntries (key : φ) (value : β) : List (φ × β) → List (φ × β)
  | [] => [(key, value)]
  | entry :: rest =>
      if entry.1 = key then (key, value) :: rest.filter fun other => decide (other.1 ≠ key)
      else entry :: setEntries key value rest

def set (dict : MultiDict form β) (key : κ) (value : β) : MultiDict form β :=
  ⟨setEntries (form key) value dict.entries⟩

/-- An update writes the items one after the other. -/
def update (dict : MultiDict form β) (items : List (κ × β)) : MultiDict form β :=
  items.foldl (fun dict item => dict.set item.1 item.2) dict

/-- The entries of another key do not count for a lookup. -/
theorem lookup_filter_of_ne {wanted dropped : φ} (different : wanted ≠ dropped)
    (entries : List (φ × β)) :
    (entries.filter fun entry => decide (entry.1 ≠ dropped)).lookup wanted =
      entries.lookup wanted := by
  induction entries with
  | nil => rfl
  | cons entry rest ih =>
      by_cases same : entry.1 = dropped
      · have other : (wanted == entry.1) = false := by rw [same, beq_false_of_ne different]
        rw [List.filter_cons_of_neg (by simpa using same), List.lookup_cons, other, ih]
      · rw [List.filter_cons_of_pos (by simpa using same), List.lookup_cons, List.lookup_cons, ih]

variable {dict : MultiDict form β} {key other : κ} {value : β}

/-- A written value is read back. -/
@[simp] theorem get_set_self : (dict.set key value).get key = some value := by
  obtain ⟨entries⟩ := dict
  simp only [get, set]
  induction entries with
  | nil => simp [setEntries]
  | cons entry rest ih =>
      rw [setEntries]
      split
      · exact List.lookup_cons_self
      next different =>
        rw [List.lookup_cons, beq_false_of_ne (Ne.symm different)]
        exact ih

/-- The values of the other keys stay. -/
theorem get_set_of_ne (different : form other ≠ form key) :
    (dict.set key value).get other = dict.get other := by
  obtain ⟨entries⟩ := dict
  simp only [get, set]
  induction entries with
  | nil => simp [setEntries, List.lookup_cons, beq_false_of_ne different]
  | cons entry rest ih =>
      rw [setEntries]
      split
      next same =>
        rw [List.lookup_cons, List.lookup_cons, beq_false_of_ne different, same,
          beq_false_of_ne different]
        exact lookup_filter_of_ne different rest
      · rw [List.lookup_cons, List.lookup_cons, ih]

end MultiDict
end EventLedger.Library
