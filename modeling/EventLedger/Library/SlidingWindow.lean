import Mathlib.Data.List.Sort

namespace EventLedger.Library
variable {α : Type} [LinearOrder α] {times : List α} {cutoff later : α}

/-- The times of a sorted log that lie after a cutoff. -/
def recent (times : List α) (cutoff : α) : List α := times.filter fun time => decide (cutoff < time)

@[simp] theorem recent_nil : recent [] cutoff = [] := rfl

theorem recent_append (first second : List α) (cutoff : α) :
    recent (first ++ second) cutoff = recent first cutoff ++ recent second cutoff :=
  List.filter_append ..

theorem mem_recent {time : α} : time ∈ recent times cutoff ↔ time ∈ times ∧ cutoff < time := by
  simp [recent]

/-- A sorted log loses exactly its old times at its head. -/
theorem dropWhile_eq_recent (sorted : times.Pairwise (· ≤ ·)) (cutoff : α) :
    times.dropWhile (fun time => decide (time ≤ cutoff)) = recent times cutoff := by
  induction times with
  | nil => rfl
  | cons first rest ih =>
      obtain ⟨least, sorted⟩ := List.pairwise_cons.mp sorted
      by_cases old : first ≤ cutoff
      · rw [List.dropWhile_cons_of_pos (by simpa using old), ih sorted, recent, recent,
          List.filter_cons_of_neg (by simpa using old)]
      · have new : cutoff < first := not_le.mp old
        have kept : ∀ time ∈ first :: rest, decide (cutoff < time) := by
          intro time member
          rcases List.mem_cons.mp member with rfl | member
          · exact decide_eq_true new
          · exact decide_eq_true (lt_of_lt_of_le new (least time member))
        rw [List.dropWhile_cons_of_neg (by simpa using old), recent, List.filter_eq_self.mpr kept]

/-- A later cutoff makes an earlier one superfluous. -/
theorem recent_recent (order : cutoff ≤ later) : recent (recent times cutoff) later = recent times later := by
  rw [recent, recent, List.filter_filter, recent]
  refine List.filter_congr fun time _ => ?_
  by_cases new : later < time
  · simp [new, lt_of_le_of_lt order new]
  · simp [new]

/-- No time of a sorted log is old while its first one is not. -/
theorem recent_eq_self {first : α} {rest : List α} (sorted : (first :: rest).Pairwise (· ≤ ·))
    (new : cutoff < first) : recent (first :: rest) cutoff = first :: rest := by
  obtain ⟨least, _⟩ := List.pairwise_cons.mp sorted
  refine List.filter_eq_self.mpr fun time member => ?_
  rcases List.mem_cons.mp member with rfl | member
  · exact decide_eq_true new
  · exact decide_eq_true (lt_of_lt_of_le new (least time member))

/-- A log gets shorter when its first time is old. -/
theorem length_recent_lt {first : α} (rest : List α) (old : first ≤ cutoff) :
    (recent (first :: rest) cutoff).length < (first :: rest).length := by
  rw [recent, List.filter_cons_of_neg (by simpa using old), List.length_cons]
  exact Nat.lt_succ_of_le (List.length_filter_le _ rest)

end EventLedger.Library
