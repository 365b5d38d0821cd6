import EventLedger.Library.Trace
import Mathlib.Order.Defs.PartialOrder

namespace EventLedger.Library

/-- A state is read at a time of the clock. -/
structure Clocked (State Time : Type) where
  state : State
  now : Time

/-- An action takes place at a time of the clock. -/
structure Timed (Action Time : Type) where
  action : Action
  now : Time

namespace Machine
variable {State Action Time : Type} [Preorder Time] [DecidableLE Time] [DecidableEq Time]

/-- The clock never goes back, and an action that reads it reads its own time. -/
def clocked (machine : Machine State Action) (reads : Action → Option Time) (start : Time) :
    Machine (Clocked State Time) (Timed Action Time) where
  initial := ⟨machine.initial, start⟩
  step clocked timed :=
    if clocked.now ≤ timed.now ∧ ∀ now ∈ reads timed.action, now = timed.now then
      (machine.step clocked.state timed.action).map fun next => ⟨next, timed.now⟩
    else none

variable {machine : Machine State Action} {reads : Action → Option Time} {start : Time}
  {first last next : Clocked State Time} {timed : Timed Action Time}
  {trace : Trace (Clocked State Time) (Timed Action Time)}

/-- A step under the clock is a step of the machine at a later time. -/
theorem step_clocked (taken : (machine.clocked reads start).step first timed = some next) :
    machine.step first.state timed.action = some next.state ∧ first.now ≤ timed.now ∧
      next.now = timed.now ∧ ∀ now, reads timed.action = some now → now = timed.now := by
  obtain ⟨⟨order, reading⟩, moved⟩ := Option.ite_none_right_eq_some.mp taken
  obtain ⟨state, stepped, rfl⟩ := Option.map_eq_some_iff.mp moved
  exact ⟨stepped, order, rfl, reading⟩

/-- The clock forgets nothing of the machine. -/
theorem Reachable.unclocked (reached : (machine.clocked reads start).Reachable first) :
    machine.Reachable first.state :=
  reached.project Clocked.state rfl fun _ timed _ taken =>
    .inr ⟨timed.action, (step_clocked taken).1⟩

/-- A run ends no earlier than it begins. -/
theorem Runs.now_le (runs : (machine.clocked reads start).Runs first last trace) :
    first.now ≤ last.now := by
  induction runs with
  | refl => exact le_rfl
  | step action earlier taken ih =>
      obtain ⟨_, order, now, _⟩ := step_clocked taken
      exact le_trans ih (now ▸ order)

/-- The steps of a run take place before its end. -/
theorem Runs.now_le_of_mem (runs : (machine.clocked reads start).Runs first last trace)
    {transition : Transition (Clocked State Time) (Timed Action Time)}
    (member : transition ∈ trace) :
    transition.action.now ≤ last.now := by
  obtain ⟨earlier, later, rfl⟩ := List.append_of_mem member
  obtain ⟨_, taken, rest⟩ := runs.split
  rw [← (step_clocked taken).2.2.1]
  exact rest.now_le

end Machine
end EventLedger.Library
