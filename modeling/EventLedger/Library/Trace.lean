import EventLedger.Library.Machine
import Mathlib.Data.List.Induction

namespace EventLedger.Library

/-- A transition is one step between two states. -/
structure Transition (State Action : Type) where
  before : State
  action : Action
  after : State

/-- A history lists the transitions of one run in order. -/
abbrev Trace (State Action : Type) : Type := List (Transition State Action)

/-- The transitions with one label are read in the order of the run. -/
def Trace.labelled {State Action κ : Type} [DecidableEq κ] (label : Action → κ)
    (trace : Trace State Action) (k : κ) : Trace State Action :=
  trace.filter fun transition => decide (label transition.action = k)

section Labelled
variable {State Action κ : Type} [DecidableEq κ] {label : Action → κ} {trace : Trace State Action}
  {transition : Transition State Action} {k : κ}

theorem Trace.labelled_self (same : label transition.action = k) :
    Trace.labelled label (trace ++ [transition]) k = trace.labelled label k ++ [transition] := by
  simp [labelled, same]

theorem Trace.labelled_of_ne (other : label transition.action ≠ k) :
    Trace.labelled label (trace ++ [transition]) k = trace.labelled label k := by
  simp [labelled, other]

theorem Trace.mem_labelled :
    transition ∈ trace.labelled label k ↔ transition ∈ trace ∧ label transition.action = k := by
  simp [labelled]

end Labelled

namespace Machine
variable {State Action : Type}

/-- The traced machine performs the same steps and records each of them. -/
def traced (machine : Machine State Action) : Machine (State × Trace State Action) Action where
  initial := (machine.initial, [])
  step observed action := (machine.step observed.1 action).map fun next =>
    (next, observed.2 ++ [⟨observed.1, action, next⟩])

/-- A run of the traced machine meets a condition when each of its steps meets it. -/
def TracedWithin (machine : Machine State Action) (allowed : State → Action → Prop)
    (state : State) (trace : Trace State Action) : Prop :=
  machine.traced.ReachedWithin (fun observed action => allowed observed.1 action) (state, trace)

/-- A trace records the actions of its run. -/
theorem traced_run {machine : Machine State Action} {actions : List Action} {state : State}
    {trace earlier : Trace State Action} {last : State}
    (ran : machine.traced.run (state, earlier) actions = some (last, trace)) :
    trace.map Transition.action = earlier.map Transition.action ++ actions := by
  induction actions generalizing state earlier with
  | nil =>
      obtain rfl := (Prod.mk.inj (Option.some.inj ran)).2
      rw [List.append_nil]
  | cons action rest ih =>
      obtain ⟨middle, recorded, ran⟩ := Option.bind_eq_some_iff.mp ran
      obtain ⟨next, _, rfl⟩ := Option.map_eq_some_iff.mp recorded
      rw [ih ran, List.map_append, List.append_assoc]
      rfl

/-- The invariants of a traced run speak about its state and about its transitions so far. -/
theorem TracedWithin.invariant {machine : Machine State Action}
    {allowed : State → Action → Prop} (holds : State → Trace State Action → Prop)
    (initially : holds machine.initial [])
    (preserved : ∀ state trace action next, machine.TracedWithin allowed state trace →
      holds state trace → allowed state action → machine.step state action = some next →
      holds next (trace ++ [⟨state, action, next⟩]))
    {state : State} {trace : Trace State Action}
    (reached : machine.TracedWithin allowed state trace) : holds state trace := by
  refine ReachedWithin.invariant (fun observed => holds observed.1 observed.2) initially ?_ reached
  rintro ⟨state, trace⟩ action after before held condition recorded
  obtain ⟨next, taken, rfl⟩ := Option.map_eq_some_iff.mp recorded
  exact preserved state trace action next before held condition taken

/-- The end of a traced run is reached within the condition. -/
theorem TracedWithin.reached {machine : Machine State Action} {allowed : State → Action → Prop}
    {state : State} {trace : Trace State Action}
    (traced : machine.TracedWithin allowed state trace) : machine.ReachedWithin allowed state :=
  traced.invariant (fun state _ => machine.ReachedWithin allowed state) .initial
    fun _ _ action _ _ reached condition taken => reached.step action condition taken

/-- A run leads from one state to another and records its transitions. -/
inductive Runs (machine : Machine State Action) (first : State) :
    State → Trace State Action → Prop where
  | refl : Runs machine first first []
  | step {state next : State} {trace : Trace State Action} (action : Action)
      (earlier : Runs machine first state trace) (taken : machine.step state action = some next) :
      Runs machine first next (trace ++ [⟨state, action, next⟩])

section Runs
variable {machine : Machine State Action} {first last : State} {trace : Trace State Action}

/-- A run from a reachable state stays reachable. -/
theorem Runs.reachable (runs : machine.Runs first last trace) (reached : machine.Reachable first) :
    machine.Reachable last := by
  induction runs with
  | refl => exact reached
  | step action _ taken ih => exact ih.step action taken

/-- A run leads from its first state to its last one. -/
theorem Runs.leads (runs : machine.Runs first last trace) : machine.Leads first last := by
  induction runs with
  | refl => exact Relation.ReflTransGen.refl
  | step action _ taken ih => exact ih.tail ⟨action, taken⟩

/-- Each transition of a run is a step from a reachable state. -/
theorem Runs.transition (runs : machine.Runs first last trace) (reached : machine.Reachable first)
    {transition : Transition State Action} (member : transition ∈ trace) :
    machine.Reachable transition.before ∧
      machine.step transition.before transition.action = some transition.after := by
  induction runs with
  | refl => cases member
  | step action earlier taken ih =>
      rcases List.mem_append.mp member with old | new
      · exact ih old
      · obtain rfl := List.mem_singleton.mp new
        exact ⟨earlier.reachable reached, taken⟩

/-- A run passes through the states of each of its transitions. -/
theorem Runs.split {earlier later : Trace State Action} {transition : Transition State Action}
    (runs : machine.Runs first last (earlier ++ transition :: later)) :
    machine.Runs first transition.before earlier ∧
      machine.step transition.before transition.action = some transition.after ∧
      machine.Runs transition.after last later := by
  induction later using List.reverseRecOn generalizing last with
  | nil =>
      generalize whole : earlier ++ [transition] = trace at runs
      cases runs with
      | refl => simp at whole
      | step action before taken =>
          obtain ⟨rfl, same⟩ := List.append_inj' whole rfl
          obtain rfl := List.singleton_inj.mp same
          exact ⟨before, taken, .refl⟩
  | append_singleton later latest ih =>
      generalize whole : earlier ++ transition :: (later ++ [latest]) = trace at runs
      rw [← List.cons_append, ← List.append_assoc] at whole
      cases runs with
      | refl => simp at whole
      | step action before taken =>
          obtain ⟨rfl, same⟩ := List.append_inj' whole rfl
          obtain rfl := List.singleton_inj.mp same
          obtain ⟨start, step, rest⟩ := ih before
          exact ⟨start, step, rest.step action taken⟩

/-- One run goes on where another ends. -/
theorem Runs.append {middle : State} {earlier later : Trace State Action}
    (before : machine.Runs first middle earlier) (after : machine.Runs middle last later) :
    machine.Runs first last (earlier ++ later) := by
  induction after with
  | refl => rwa [List.append_nil]
  | step action _ taken ih =>
      rw [← List.append_assoc]
      exact ih.step action taken

/-- A concrete run has a trace. -/
theorem exists_runs {actions : List Action} (ran : machine.run first actions = some last) :
    ∃ trace, machine.Runs first last trace := by
  induction actions generalizing first with
  | nil =>
      obtain rfl := Option.some.inj ran
      exact ⟨[], .refl⟩
  | cons action rest ih =>
      obtain ⟨next, taken, ran⟩ := Option.bind_eq_some_iff.mp ran
      obtain ⟨later, runs⟩ := ih ran
      exact ⟨_, (Runs.refl.step action taken).append runs⟩

/-- A concrete run of the traced machine is a run. -/
theorem runs_of_traced {actions : List Action} {state : State} {earlier : Trace State Action}
    (runs : machine.Runs first state earlier)
    (ran : machine.traced.run (state, earlier) actions = some (last, trace)) :
    machine.Runs first last trace := by
  induction actions generalizing state earlier with
  | nil =>
      obtain ⟨rfl, rfl⟩ := Prod.mk.inj (Option.some.inj ran)
      exact runs
  | cons action rest ih =>
      obtain ⟨middle, recorded, ran⟩ := Option.bind_eq_some_iff.mp ran
      obtain ⟨next, taken, rfl⟩ := Option.map_eq_some_iff.mp recorded
      exact ih (runs.step action taken) ran

end Runs
end Machine
end EventLedger.Library
