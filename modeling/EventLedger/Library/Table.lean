import Mathlib.Data.List.Nodup

namespace EventLedger.Library

/-- A table keeps its rows in insertion order under a primary key. -/
structure Table {κ ρ : Type} (key : ρ → κ) where
  rows : List ρ
  unique : (rows.map key).Nodup

namespace Table
variable {κ ρ : Type} {key : ρ → κ}

def empty (key : ρ → κ) : Table key := ⟨[], List.nodup_nil⟩

variable [DecidableEq κ]

/-- This query reads the row under one primary key. -/
def get (table : Table key) (k : κ) : Option ρ :=
  table.rows.find? fun row => decide (key row = k)

/-- An insert fails when the primary key is already present. -/
def insert (table : Table key) (row : ρ) : Option (Table key) :=
  if fresh : key row ∈ table.rows.map key then none
  else some ⟨table.rows ++ [row], by
    rw [List.map_append, List.map_singleton]
    exact List.nodup_append.mpr ⟨table.unique, List.nodup_singleton _, by
      rintro a member b single rfl
      exact fresh (List.mem_singleton.mp single ▸ member)⟩⟩

/-- An update rewrites the row under one primary key and keeps that key. -/
def modify (table : Table key) (k : κ) (f : ρ → ρ)
    (keeps : ∀ row, key (f row) = key row := by intro row; rfl) : Table key :=
  ⟨table.rows.map fun row => if key row = k then f row else row, by
    have same : (table.rows.map fun row => if key row = k then f row else row).map key =
        table.rows.map key := by
      rw [List.map_map]
      apply List.map_congr_left
      intro row _
      by_cases hit : key row = k <;> simp [hit, keeps]
    rw [same]
    exact table.unique⟩

/-- A session updates a row that it loaded before, and the update fails when the row is gone. -/
def update (table : Table key) (k : κ) (f : ρ → ρ)
    (keeps : ∀ row, key (f row) = key row := by intro row; rfl) : Option (Table key) :=
  if (table.get k).isSome then some (table.modify k f keeps) else none

/-- A delete drops the row under one primary key. -/
def erase (table : Table key) (k : κ) : Table key :=
  ⟨table.rows.filter fun row => decide (key row ≠ k),
    (List.filter_sublist.map key).nodup table.unique⟩

/-- A read returns exactly the stored row with the key. -/
theorem get_eq_some {table : Table key} {k : κ} {row : ρ} :
    table.get k = some row ↔ row ∈ table.rows ∧ key row = k := by
  constructor
  · intro found
    exact ⟨List.mem_of_find?_eq_some found, by simpa using List.find?_some found⟩
  · rintro ⟨member, rfl⟩
    obtain ⟨other, found⟩ : ∃ other, table.get (key row) = some other := by
      rw [← Option.isSome_iff_exists, get, List.find?_isSome]
      exact ⟨row, member, by simp⟩
    have same : other = row :=
      List.inj_on_of_nodup_map table.unique (List.mem_of_find?_eq_some found) member
        (by simpa using List.find?_some found)
    rw [found, same]

/-- A read returns nothing exactly when no row has the key. -/
theorem get_eq_none {table : Table key} {k : κ} :
    table.get k = none ↔ ∀ row ∈ table.rows, key row ≠ k := by
  simp [get, List.find?_eq_none]

theorem mem_of_get {table : Table key} {k : κ} {row : ρ} (found : table.get k = some row) :
    row ∈ table.rows := (get_eq_some.mp found).1

theorem key_of_get {table : Table key} {k : κ} {row : ρ} (found : table.get k = some row) :
    key row = k := (get_eq_some.mp found).2

theorem get_of_mem {table : Table key} {row : ρ} (member : row ∈ table.rows) :
    table.get (key row) = some row := get_eq_some.mpr ⟨member, rfl⟩

/-- The rows with one key are the row that a read returns. -/
theorem filter_of_get {table : Table key} {k : κ} {row : ρ} (found : table.get k = some row) :
    (table.rows.filter fun row => decide (key row = k)) = [row] := by
  have distinct : table.rows.Nodup := table.unique.of_map key
  rw [← List.perm_singleton, List.perm_ext_iff_of_nodup (distinct.filter _) (List.nodup_singleton _)]
  intro other
  have same : table.get k = some other ↔ other = row := by rw [found, Option.some.injEq, eq_comm]
  simp only [List.mem_filter, decide_eq_true_eq, List.mem_singleton, ← same, get_eq_some]

/-- An insert fails exactly on a key that a read finds. -/
theorem insert_eq_none (table : Table key) (row : ρ) :
    table.insert row = none ↔ table.get (key row) ≠ none := by
  unfold insert
  split
  · next present =>
      obtain ⟨other, member, same⟩ := List.mem_map.mp present
      simp only [true_iff]
      intro absent
      exact get_eq_none.mp absent other member same
  · next absent =>
      simp only [reduceCtorEq, false_iff, not_not]
      exact get_eq_none.mpr fun other member same =>
        absent (List.mem_map.mpr ⟨other, member, same⟩)

/-- A successful insert appends the row. -/
theorem rows_insert {table next : Table key} {row : ρ} (inserted : table.insert row = some next) :
    next.rows = table.rows ++ [row] := by
  unfold insert at inserted
  split at inserted
  · cases inserted
  · rw [← Option.some.inj inserted]

theorem get_of_insert {table next : Table key} {row : ρ}
    (inserted : table.insert row = some next) : table.get (key row) = none := by
  by_contra present
  rw [(insert_eq_none table row).mpr present] at inserted
  cases inserted

theorem insert_of_get (table : Table key) (row : ρ) (absent : table.get (key row) = none) :
    ∃ next, table.insert row = some next := by
  cases inserted : table.insert row with
  | some next => exact ⟨next, rfl⟩
  | none => exact absurd absent ((insert_eq_none table row).mp inserted)

/-- A successful insert changes one read only. -/
theorem get_insert {table next : Table key} {row : ρ} (inserted : table.insert row = some next)
    (k : κ) : next.get k = if key row = k then some row else table.get k := by
  rw [get, rows_insert inserted, List.find?_append]
  by_cases hit : key row = k
  · have absent := get_of_insert inserted
    rw [hit, get] at absent
    simp [absent, hit]
  · cases found : table.rows.find? fun row => decide (key row = k) <;>
      simp [get, found, hit]

@[simp] theorem rows_modify (table : Table key) (k : κ) (f : ρ → ρ)
    (keeps : ∀ row, key (f row) = key row) :
    (table.modify k f keeps).rows = table.rows.map fun row => if key row = k then f row else row :=
  rfl

/-- An update changes one read only. -/
theorem get_modify (table : Table key) (k : κ) (f : ρ → ρ)
    (keeps : ∀ row, key (f row) = key row) (other : κ) :
    (table.modify k f keeps).get other =
      if other = k then (table.get k).map f else table.get other := by
  have shape (row : ρ) : key (if key row = k then f row else row) = key row := by
    by_cases hit : key row = k <;> simp [hit, keeps]
  rw [get, rows_modify, List.find?_map]
  simp only [Function.comp_def, shape]
  cases found : table.rows.find? fun row => decide (key row = other) with
  | none =>
      have absent : table.get other = none := found
      by_cases hit : other = k
      · subst other
        simp [absent]
      · simp [hit, absent]
  | some row =>
      have present : table.get other = some row := found
      have rowKey := key_of_get present
      by_cases hit : other = k
      · subst hit
        simp [present, rowKey]
      · simp [hit, present, rowKey]

/-- An update succeeds exactly on a stored row. -/
theorem update_eq_some {table next : Table key} {k : κ} {f : ρ → ρ}
    {keeps : ∀ row, key (f row) = key row} :
    table.update k f keeps = some next ↔
      (∃ row, table.get k = some row) ∧ table.modify k f keeps = next := by
  unfold update
  rw [← Option.isSome_iff_exists]
  split
  · next present => simp [present]
  · next absent => simp [absent]

/-- A delete changes one read only. -/
theorem get_erase (table : Table key) (k other : κ) :
    (table.erase k).get other = if other = k then none else table.get other := by
  by_cases hit : other = k
  · subst other
    rw [if_pos rfl, get_eq_none]
    intro row member
    simpa using (List.mem_filter.mp member).2
  · rw [if_neg hit]
    cases found : table.get other with
    | none =>
        rw [get_eq_none] at found ⊢
        exact fun row member => found row (List.mem_filter.mp member).1
    | some row =>
        rw [get_eq_some] at found ⊢
        exact ⟨List.mem_filter.mpr ⟨found.1, by simpa [found.2] using hit⟩, found.2⟩

/-- A table that lacks one row of another table holds its other rows. -/
theorem rows_perm_of_get {table next : Table key} {k : κ} {row : ρ}
    (present : table.get k = some row)
    (reads : ∀ other, next.get other = if other = k then none else table.get other) :
    table.rows.Perm (row :: next.rows) := by
  have rowKey := key_of_get present
  have removed : next.get k = none := (reads k).trans (if_pos rfl)
  have absent : row ∉ next.rows := fun member => get_eq_none.mp removed row member rowKey
  rw [List.perm_ext_iff_of_nodup (table.unique.of_map key)
    (List.nodup_cons.mpr ⟨absent, next.unique.of_map key⟩)]
  intro other
  have stored (t : Table key) : other ∈ t.rows ↔ t.get (key other) = some other := by
    rw [get_eq_some, and_iff_left rfl]
  rw [List.mem_cons, stored, stored, reads]
  by_cases hit : key other = k
  · rw [if_pos hit, hit, present]
    simp [eq_comm]
  · rw [if_neg hit]
    have different : other ≠ row := fun same => hit (same ▸ rowKey)
    simp [different]

end Table
end EventLedger.Library
