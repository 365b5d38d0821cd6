import Mathlib.Logic.Relation

namespace EventLedger.Library

/-- A machine takes one labelled step at a time, and a refused label gives no next state. -/
structure Machine (State Action : Type) where
  initial : State
  step : State → Action → Option State

namespace Machine
variable {State Action : Type}

/-- This function performs a fixed list of actions. -/
def run (machine : Machine State Action) : State → List Action → Option State
  | state, [] => some state
  | state, action :: rest => (machine.step state action).bind fun next => machine.run next rest

theorem run_append (machine : Machine State Action) (first second : List Action) (state : State) :
    machine.run state (first ++ second) =
      (machine.run state first).bind fun middle => machine.run middle second := by
  induction first generalizing state with
  | nil => rfl
  | cons action rest ih =>
      simp only [List.cons_append, run, Option.bind_assoc, ih]

/-- A state is reached by steps that all satisfy one condition on the state before the step. -/
inductive ReachedWithin (machine : Machine State Action) (allowed : State → Action → Prop) :
    State → Prop where
  | initial : ReachedWithin machine allowed machine.initial
  | step {state next : State} (action : Action) (reached : ReachedWithin machine allowed state)
      (condition : allowed state action) (taken : machine.step state action = some next) :
      ReachedWithin machine allowed next

/-- A state is reachable when unrestricted steps lead to it. -/
def Reachable (machine : Machine State Action) : State → Prop :=
  machine.ReachedWithin fun _ _ => True

/-- One state leads to another by any number of steps. -/
def Leads (machine : Machine State Action) : State → State → Prop :=
  Relation.ReflTransGen fun state next => ∃ action, machine.step state action = some next

theorem Reachable.initial {machine : Machine State Action} : machine.Reachable machine.initial :=
  ReachedWithin.initial

theorem Reachable.step {machine : Machine State Action} {state next : State} (action : Action)
    (reached : machine.Reachable state) (taken : machine.step state action = some next) :
    machine.Reachable next := ReachedWithin.step action reached trivial taken

/-- A condition on the steps only removes runs. -/
theorem ReachedWithin.reachable {machine : Machine State Action}
    {allowed : State → Action → Prop} {state : State}
    (reached : machine.ReachedWithin allowed state) : machine.Reachable state := by
  induction reached with
  | initial => exact Reachable.initial
  | step action _ _ taken ih => exact ih.step action taken

/-- A weaker condition reaches more states. -/
theorem ReachedWithin.mono {machine : Machine State Action} {allowed weaker : State → Action → Prop}
    (implies : ∀ state action, allowed state action → weaker state action) {state : State}
    (reached : machine.ReachedWithin allowed state) : machine.ReachedWithin weaker state := by
  induction reached with
  | initial => exact .initial
  | step action _ condition taken ih => exact ih.step action (implies _ action condition) taken

/-- An invariant that every allowed step preserves holds in every state reached. -/
theorem ReachedWithin.invariant {machine : Machine State Action}
    {allowed : State → Action → Prop} (holds : State → Prop) (initially : holds machine.initial)
    (preserved : ∀ state action next, machine.ReachedWithin allowed state → holds state →
      allowed state action → machine.step state action = some next → holds next)
    {state : State} (reached : machine.ReachedWithin allowed state) : holds state := by
  induction reached with
  | initial => exact initially
  | step action before condition taken ih =>
      exact preserved _ action _ before ih condition taken

/-- An invariant that every step preserves holds in every reachable state. -/
theorem Reachable.invariant {machine : Machine State Action} (holds : State → Prop)
    (initially : holds machine.initial)
    (preserved : ∀ state action next, machine.Reachable state → holds state →
      machine.step state action = some next → holds next)
    {state : State} (reached : machine.Reachable state) : holds state :=
  ReachedWithin.invariant holds initially
    (fun state action next before held _ taken => preserved state action next before held taken)
    reached

/-- A reachable state stays reachable along every later run. -/
theorem Leads.reachable {machine : Machine State Action} {first last : State}
    (leads : machine.Leads first last) (reached : machine.Reachable first) :
    machine.Reachable last := by
  induction leads with
  | refl => exact reached
  | tail _ taken ih =>
      obtain ⟨action, taken⟩ := taken
      exact ih.step action taken

/-- A property that every reachable step preserves persists along every later run. -/
theorem Leads.persists {machine : Machine State Action} (holds : State → Prop)
    (preserved : ∀ state action next, machine.Reachable state → holds state →
      machine.step state action = some next → holds next)
    {first last : State} (leads : machine.Leads first last) (reached : machine.Reachable first)
    (start : holds first) : holds last := by
  induction leads with
  | refl => exact start
  | tail before taken ih =>
      obtain ⟨action, taken⟩ := taken
      exact preserved _ action _ (Leads.reachable before reached) ih taken

/-- A concrete run leads to its last state. -/
theorem leads_of_run {machine : Machine State Action} (actions : List Action) {state last : State}
    (ran : machine.run state actions = some last) : machine.Leads state last := by
  induction actions generalizing state with
  | nil =>
      obtain rfl := Option.some.inj ran
      exact Relation.ReflTransGen.refl
  | cons action rest ih =>
      obtain ⟨next, taken, ran⟩ := Option.bind_eq_some_iff.mp ran
      exact Relation.ReflTransGen.head ⟨action, taken⟩ (ih ran)

/-- A concrete run shows that its last state is reachable. -/
theorem reachable_of_run {machine : Machine State Action} (actions : List Action)
    {state last : State} (reached : machine.Reachable state)
    (ran : machine.run state actions = some last) : machine.Reachable last := by
  induction actions generalizing state with
  | nil =>
      obtain rfl := Option.some.inj ran
      exact reached
  | cons action rest ih =>
      obtain ⟨next, taken, ran⟩ := Option.bind_eq_some_iff.mp ran
      exact ih (reached.step action taken) ran

/-- A concrete run stays within a condition that its actions meet in every state. -/
theorem reachedWithin_of_always {machine : Machine State Action}
    {allowed : State → Action → Prop} (actions : List Action)
    (always : ∀ action ∈ actions, ∀ state, allowed state action) {state last : State}
    (reached : machine.ReachedWithin allowed state)
    (ran : machine.run state actions = some last) : machine.ReachedWithin allowed last := by
  induction actions generalizing state with
  | nil =>
      obtain rfl := Option.some.inj ran
      exact reached
  | cons action rest ih =>
      obtain ⟨next, taken, ran⟩ := Option.bind_eq_some_iff.mp ran
      obtain ⟨first, others⟩ := List.forall_mem_cons.mp always
      exact ih others (reached.step action (first state) taken) ran

/-- The restricted machine refuses every step that breaks the condition. -/
def restrict (machine : Machine State Action) (allowed : State → Action → Prop)
    [∀ state action, Decidable (allowed state action)] : Machine State Action where
  initial := machine.initial
  step state action := if allowed state action then machine.step state action else none

/-- The restricted machine takes exactly the allowed steps. -/
theorem step_restrict {machine : Machine State Action} {allowed : State → Action → Prop}
    [∀ state action, Decidable (allowed state action)] {state next : State} {action : Action} :
    (machine.restrict allowed).step state action = some next ↔
      allowed state action ∧ machine.step state action = some next :=
  Option.ite_none_right_eq_some

/-- A property that every allowed step preserves persists along every later allowed run. -/
theorem Leads.persistsWithin {machine : Machine State Action} {allowed : State → Action → Prop}
    [∀ state action, Decidable (allowed state action)] (holds : State → Prop)
    (preserved : ∀ state action next, machine.Reachable state → holds state →
      allowed state action → machine.step state action = some next → holds next)
    {first last : State} (leads : (machine.restrict allowed).Leads first last)
    (reached : machine.Reachable first) (start : holds first) :
    machine.Reachable last ∧ holds last := by
  induction leads with
  | refl => exact ⟨reached, start⟩
  | tail before taken ih =>
      obtain ⟨action, taken⟩ := taken
      obtain ⟨allowed, taken⟩ := step_restrict.mp taken
      exact ⟨ih.1.step action taken, preserved _ action _ ih.1 ih.2 allowed taken⟩

/-- The restricted machine leads only where the machine leads. -/
theorem leads_of_restrict {machine : Machine State Action} {allowed : State → Action → Prop}
    [∀ state action, Decidable (allowed state action)] {first last : State}
    (leads : (machine.restrict allowed).Leads first last) : machine.Leads first last := by
  induction leads with
  | refl => exact .refl
  | tail _ taken ih =>
      obtain ⟨action, taken⟩ := taken
      exact ih.tail ⟨action, (step_restrict.mp taken).2⟩

/-- Every run of the restricted machine is a run of the machine. -/
theorem run_of_restrict {machine : Machine State Action} {allowed : State → Action → Prop}
    [∀ state action, Decidable (allowed state action)] {actions : List Action} {state last : State}
    (ran : (machine.restrict allowed).run state actions = some last) :
    machine.run state actions = some last := by
  induction actions generalizing state with
  | nil => exact ran
  | cons action rest ih =>
      obtain ⟨next, taken, ran⟩ := Option.bind_eq_some_iff.mp ran
      exact Option.bind_eq_some_iff.mpr ⟨next, (step_restrict.mp taken).2, ih ran⟩

/-- A concrete run of the restricted machine reaches its last state within the condition. -/
theorem reachedWithin_of_run {machine : Machine State Action} {allowed : State → Action → Prop}
    [∀ state action, Decidable (allowed state action)] (actions : List Action) {state last : State}
    (reached : machine.ReachedWithin allowed state)
    (ran : (machine.restrict allowed).run state actions = some last) :
    machine.ReachedWithin allowed last := by
  induction actions generalizing state with
  | nil =>
      obtain rfl := Option.some.inj ran
      exact reached
  | cons action rest ih =>
      obtain ⟨next, taken, ran⟩ := Option.bind_eq_some_iff.mp ran
      obtain ⟨condition, taken⟩ := step_restrict.mp taken
      exact ih (reached.step action condition taken) ran

/-- A projection that maps each step to at most one step maps reachable states to reachable states. -/
theorem Reachable.project {Other Label : Type} {machine : Machine State Action}
    {target : Machine Other Label} (project : State → Other)
    (initially : project machine.initial = target.initial)
    (simulates : ∀ state action next, machine.step state action = some next →
      project next = project state ∨
        ∃ label, target.step (project state) label = some (project next))
    {state : State} (reached : machine.Reachable state) : target.Reachable (project state) := by
  induction reached with
  | initial => exact initially ▸ Reachable.initial
  | step action _ _ taken ih =>
      rcases simulates _ action _ taken with same | ⟨label, stepped⟩
      · exact same ▸ ih
      · exact ih.step label stepped

end Machine
end EventLedger.Library
