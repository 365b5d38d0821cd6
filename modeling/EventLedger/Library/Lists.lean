import Mathlib.Data.List.Nodup

namespace EventLedger.Library
variable {α β γ : Type} [DecidableEq β]

/-- Distinct images single out one element of a list. -/
theorem filter_eq_singleton {f : α → β} {items : List α} (distinct : (items.map f).Nodup)
    {item : α} (member : item ∈ items) :
    items.filter (fun other => decide (f other = f item)) = [item] := by
  induction items with
  | nil => cases member
  | cons head rest ih =>
      rw [List.map_cons, List.nodup_cons] at distinct
      rcases List.mem_cons.mp member with rfl | inRest
      · have others : rest.filter (fun other => decide (f other = f item)) = [] :=
          List.filter_eq_nil_iff.mpr fun other found same =>
            distinct.1 (List.mem_map.mpr ⟨other, found, of_decide_eq_true same⟩)
        rw [List.filter_cons_of_pos (by simp), others]
      · have different : f head ≠ f item := fun same =>
          distinct.1 (List.mem_map.mpr ⟨item, inRest, same.symm⟩)
        rw [List.filter_cons_of_neg (by simpa using different), ih distinct.2 inRest]

/-- Two lists with the same distinct images correspond one to one. -/
theorem exists_filter_eq_singleton {f : α → β} {g : γ → β} {items : List α} {rows : List γ}
    (images : items.map f = rows.map g) (distinct : (rows.map g).Nodup) {row : γ}
    (member : row ∈ rows) :
    ∃ item, items.filter (fun other => decide (f other = g row)) = [item] ∧ f item = g row := by
  have image : g row ∈ items.map f := images ▸ List.mem_map_of_mem member
  obtain ⟨item, inItems, same⟩ := List.mem_map.mp image
  exact ⟨item, same ▸ filter_eq_singleton (images ▸ distinct) inItems, same⟩

omit [DecidableEq β] in
/-- Distinct images tell apart the lists that are drawn from the same items. -/
theorem eq_of_map_eq {f : α → β} {items first second : List α} (distinct : (items.map f).Nodup)
    (firstDrawn : first ⊆ items) (secondDrawn : second ⊆ items)
    (same : first.map f = second.map f) : first = second := by
  induction first generalizing second with
  | nil => exact (List.map_eq_nil_iff.mp same.symm).symm
  | cons head rest ih =>
      cases second with
      | nil => cases same
      | cons other others =>
          rw [List.map_cons, List.map_cons, List.cons.injEq] at same
          rw [List.cons_subset] at firstDrawn secondDrawn
          rw [List.inj_on_of_nodup_map distinct firstDrawn.1 secondDrawn.1 same.1,
            ih firstDrawn.2 secondDrawn.2 same.2]

/-- One more element belongs to the longest prefix when the whole list and the element do. -/
theorem mem_takeWhile_concat {p : α → Bool} {items : List α} {item other : α} :
    other ∈ (items ++ [item]).takeWhile p ↔
      other ∈ items.takeWhile p ∨ (∀ earlier ∈ items, p earlier) ∧ p item ∧ other = item := by
  induction items with
  | nil => by_cases holds : p item <;> simp [holds]
  | cons head rest ih =>
      by_cases holds : p head
      · rw [List.forall_mem_cons, and_iff_right holds, List.cons_append,
          List.takeWhile_cons_of_pos holds, List.takeWhile_cons_of_pos holds, List.mem_cons, ih,
          List.mem_cons, or_assoc]
      · simp [holds]

omit [DecidableEq β] in
/-- One more element adds at most one image. -/
theorem filterMap_concat (f : α → Option β) (items : List α) (item : α) :
    (items ++ [item]).filterMap f = items.filterMap f ++ (f item).toList := by
  rw [List.filterMap_append]
  cases found : f item <;> simp [found]

end EventLedger.Library
