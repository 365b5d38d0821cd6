import EventLedger.Library.Trace

namespace EventLedger.Library
namespace Machine
variable {State Action κ View Answer : Type}

/-- Each action reads and writes only the view of its own label. -/
structure Isolated (machine : Machine State Action) (label : Action → κ)
    (view : State → κ → View) (answer : State → Action → Answer) : Prop where
  own : ∀ {first second next : State} {action : Action},
    view first (label action) = view second (label action) →
    machine.step first action = some next →
    answer first action = answer second action ∧
      ∃ other, machine.step second action = some other ∧
        view next (label action) = view other (label action)
  other : ∀ {state next : State} {action : Action} {k : κ},
    machine.step state action = some next → label action ≠ k → view next k = view state k

/-- The answers of one label are the answers of a run of that label alone. -/
theorem Isolated.alone [DecidableEq κ] {machine : Machine State Action} {label : Action → κ}
    {view : State → κ → View} {answer : State → Action → Answer} {first last : State}
    {trace : Trace State Action} (isolated : machine.Isolated label view answer)
    (runs : machine.Runs first last trace) (k : κ) :
    ∃ lastAlone alone, machine.Runs first lastAlone alone ∧
      alone.map Transition.action = (trace.labelled label k).map Transition.action ∧
      alone.map (fun transition => answer transition.before transition.action) =
        (trace.labelled label k).map (fun transition => answer transition.before transition.action) ∧
      view lastAlone k = view last k := by
  induction runs with
  | refl => exact ⟨first, [], .refl, rfl, rfl, rfl⟩
  | step action earlier taken ih =>
      obtain ⟨lastAlone, alone, runs, actions, answers, same⟩ := ih
      by_cases own : label action = k
      · subst own
        obtain ⟨answered, next, stepped, kept⟩ := isolated.own same.symm taken
        refine ⟨next, _, runs.step action stepped, ?_, ?_, kept.symm⟩
        · rw [Trace.labelled_self rfl, List.map_append, List.map_append, actions]
          rfl
        · rw [Trace.labelled_self rfl, List.map_append, List.map_append, answers]
          exact congrArg (_ ++ [·]) answered.symm
      · refine ⟨lastAlone, alone, runs, ?_, ?_, same.trans (isolated.other taken own).symm⟩
        · rw [Trace.labelled_of_ne own, actions]
        · rw [Trace.labelled_of_ne own, answers]

end Machine
end EventLedger.Library
