import EventLedger.EventGateway.Consistency

namespace EventLedger.EventGateway
open Library Python

variable {storage : Storage} {settings : Settings} {process : Process} {action : Action}

/-- A submit is in flight from its arrival to its answer. -/
def Submit.inFlight : Submit → Bool
  | .idle | .answered _ => false
  | _ => true

/-- Each stored event is applied, failed, or queued with a delivery. -/
def Database.Settled (db : Database) : Prop :=
  ∀ event ∈ db.events.rows, event.processingStatus = .applied ∨ event.processingStatus = .failed ∨
    (event.processingStatus = .queued ∧ ∃ delivery, db.deliveries.get event.eventId = some delivery)

/-- No submit owns its event when the process crashes, and no downstream call of a submit ends in an
exception other than `AccountServiceUnavailable`. -/
def Process.settling (process : Process) : Action → Prop
  | .crash => ∀ i, (process.submits i).owned = none
  | .resume _ outcome _ => match outcome with
      | .raised => False
      | .response _ | .unavailable _ => True
  | _ => True

/-- Every pending event belongs to a submit that has not settled it yet. -/
def Process.PendingOwned (process : Process) : Prop :=
  ∀ eventId event, process.db.events.get eventId = some event →
    event.processingStatus = .pending →
    ∃ i submission, (process.submits i).owned = some (submission, event)

/-- Only an insert leads to a pending event. -/
theorem Entry.Move.pending {before after : Entry} (move : Entry.Move storage before after)
    {event : Event} (present : after.event = some event)
    (pending : event.processingStatus = .pending) : before.event = none := by
  cases move with
  | insert => rfl
  | settle _ status final | dequeue _ _ status _ final =>
      obtain rfl := Option.some.inj present
      obtain rfl : status = .pending := pending
      cases final
  | queue =>
      obtain rfl := Option.some.inj present
      cases pending
  | reschedule _ _ _ _ _ queued =>
      obtain rfl := Option.some.inj present
      rw [queued] at pending
      cases pending

/-- An event outside the moved entry keeps its owner. -/
theorem Process.PendingOwned.submit {after : Process} {i : Nat} {submit : Submit}
    (owned : process.PendingOwned)
    (effect : Submit.Effect storage settings process.db after.db i action (process.submits i) submit)
    (submits : after.submits = Function.update process.submits i submit)
    (settling : ∀ now, action ≠ .resume i .raised now) : after.PendingOwned := by
  -- A pending event that was stored before the step keeps its owner.
  have keeps {eventId : String} {event : Event}
      (present : process.db.events.get eventId = some event)
      (pending : event.processingStatus = .pending)
      (kept : ∀ submission, (process.submits i).owned = some (submission, event) →
        submit.owned = some (submission, event)) :
      ∃ j submission, (after.submits j).owned = some (submission, event) := by
    obtain ⟨j, submission, holder⟩ := owned eventId event present pending
    refine ⟨j, submission, ?_⟩
    rw [submits]
    by_cases own : j = i
    · subst own
      rw [Function.update_self]
      exact kept submission holder
    · rwa [Function.update_of_ne own]
  intro eventId event present pending
  cases effect with
  | silent kept same =>
      have stored := (congrArg Entry.event (same eventId)).symm.trans present
      rcases kept with kept | ⟨_, now, raised⟩
      · exact keeps stored pending fun submission holder => kept.trans holder
      · exact absurd raised (settling now)
  | insert submission fresh _ earlier later changed =>
      rcases event_of_changed changed present with ⟨_, inserted⟩ | ⟨_, stored⟩
      · obtain rfl := Option.some.inj inserted
        exact ⟨i, submission, by rw [submits, Function.update_self, later]⟩
      · exact keeps stored pending fun other holder => by
          rw [earlier] at holder
          cases holder
  | settle submission entry earlier later _ move _ _ changed =>
      rcases event_of_changed changed present with ⟨_, moved⟩ | ⟨own, stored⟩
      · have none := move.pending moved pending
        cases none
      · refine keeps stored pending fun other holder => ?_
        rw [earlier] at holder
        obtain ⟨rfl, rfl⟩ := Prod.mk.inj (Option.some.inj holder)
        exact absurd (Table.key_of_get stored).symm own

theorem Process.PendingOwned.work {after : Process} (owned : process.PendingOwned)
    (effect : Worker.Effect storage process.db after.db action process.worker after.worker)
    (submits : after.submits = process.submits) : after.PendingOwned := by
  intro eventId event present pending
  have keeps (stored : process.db.events.get eventId = some event) :
      ∃ i submission, (after.submits i).owned = some (submission, event) := by
    rw [submits]
    exact owned eventId event stored pending
  cases effect with
  | silent _ same | call _ _ _ _ same =>
      exact keeps ((congrArg Entry.event (same eventId)).symm.trans present)
  | deliver delivery held entry _ _ _ move _ _ changed =>
      rcases event_of_changed changed present with ⟨_, moved⟩ | ⟨_, stored⟩
      · have none := move.pending moved pending
        cases none
      · exact keeps stored

/-- A settling step keeps every pending event owned. -/
theorem Process.PendingOwned.step {after : Process} (consistent : process.Consistent storage)
    (owned : process.PendingOwned) (settling : process.settling action)
    (taken : process.step storage settings action = some after) : after.PendingOwned := by
  rcases Process.step_cases taken with
    ⟨i, submit, step, submits, _⟩ | ⟨step, submits⟩ | ⟨rfl, rfl⟩
  · refine owned.submit (step.effect (consistent.owns i)) submits ?_
    rintro now rfl
    exact settling
  · exact owned.work (step.effect consistent.valid consistent.current) submits
  · intro eventId event present pending
    obtain ⟨i, submission, holder⟩ := owned eventId event present pending
    rw [settling i] at holder
    cases holder

/-- In a settling run every stored event is settled whenever no submit is in flight. -/
theorem pending_settled
    (reached : (gateway storage settings).ReachedWithin Process.settling process)
    (quiet : ∀ i, (process.submits i).inFlight = false) : process.db.Settled := by
  have consistent := consistent_of_reachable reached.reachable
  have owned : process.PendingOwned := reached.invariant _
    (fun eventId event present => by cases present)
    fun state action after before owned settling taken =>
      owned.step (consistent_of_reachable before.reachable) settling taken
  intro event member
  have present := Table.get_of_mem member
  cases status : event.processingStatus with
  | applied => exact .inl rfl
  | failed => exact .inr (.inl rfl)
  | queued =>
      have delivery := (consistent.valid event.eventId).mpr ⟨event, present, status⟩
      exact .inr (.inr ⟨rfl, Option.isSome_iff_exists.mp delivery⟩)
  | pending =>
      obtain ⟨i, submission, holder⟩ := owned event.eventId event present status
      have idle := quiet i
      cases submit : process.submits i with
      | stored | calling =>
          rw [submit] at idle
          cases idle
      | idle | received | inserting | conflicted | recording | answered =>
          rw [submit] at holder
          cases holder

/-- The submits other than the one that an action names stay idle. -/
theorem idle_of_run {actions : List Action} {i : Nat} {after : Process}
    (others : ∀ action ∈ actions, action.call ≠ some i) (idle : process.submits i = .idle)
    (ran : (gateway storage settings).run process actions = some after) :
    after.submits i = .idle := by
  induction actions generalizing process with
  | nil =>
      obtain rfl := Option.some.inj ran
      exact idle
  | cons action rest ih =>
      obtain ⟨next, taken, ran⟩ := Option.bind_eq_some_iff.mp ran
      obtain ⟨other, others⟩ := List.forall_mem_cons.mp others
      refine ih others ?_ ran
      rcases Process.step_cases taken with
        ⟨j, submit, step, submits, _⟩ | ⟨_, submits⟩ | ⟨_, rfl⟩
      · have different : i ≠ j := by
          rintro rfl
          exact other step.call_eq
        rw [submits, Function.update_of_ne different, idle]
      · rw [submits, idle]
      · rfl

/-- One event is queued and then applied by the worker. -/
def settledCalls : List Action :=
  [.arrive 0 ⟨creditX.event, "trace"⟩, .advance 0, .advance 0, .advance 0,
    .resume 0 (.unavailable "timeout") 0, .poll 0, .take "fresh",
    .deliver (.response ⟨201, "application/json", some "", none⟩) 0 .zero, .rest]

theorem pending_settled_queued : ∃ state,
    (gateway .wallClock .default).run (gateway .wallClock .default).initial settledCalls = some state ∧
      state.db.Settled := by
  obtain ⟨state, ran, answered⟩ := Option.map_eq_some_iff.mp
    (show ((gateway .wallClock .default).run (gateway .wallClock .default).initial settledCalls).map
      (fun state => (state.submits 0).inFlight) = some false by decide)
  refine ⟨state, ran, pending_settled (Machine.reachedWithin_of_always settledCalls
    (by simp [settledCalls, Process.settling]) .initial ran) fun i => ?_⟩
  by_cases own : i = 0
  · rw [own, answered]
  · rw [idle_of_run (by simp [settledCalls, Action.call, Ne.symm own]) rfl ran]
    rfl

/-- A submit awaits the answer to its call. -/
def awaiting : List Action :=
  [.arrive 0 ⟨creditX.event, "trace"⟩, .advance 0, .advance 0, .advance 0]

/-- A process that crashes over a pending event is quiet and not settled. -/
theorem crash_not_settled {actions : List Action}
    (pending : ((gateway .wallClock .default).run (gateway .wallClock .default).initial actions).map
      (fun state => state.db.events.rows.map Event.processingStatus) = some [.pending]) :
    ∃ state, (gateway .wallClock .default).run (gateway .wallClock .default).initial
        (actions ++ [.crash]) = some state ∧
      (∀ i, (state.submits i).inFlight = false) ∧ ¬ state.db.Settled := by
  obtain ⟨state, ran, statuses⟩ := Option.map_eq_some_iff.mp pending
  refine ⟨.crashed state.db, ?_, fun _ => rfl, fun settled => ?_⟩
  · rw [Machine.run_append, ran]
    rfl
  · obtain ⟨event, rows, status⟩ := List.map_eq_singleton_iff.mp statuses
    have final := settled event (rows ▸ List.mem_singleton_self event)
    rw [status] at final
    rcases final with applied | failed | ⟨queued, _⟩
    · cases applied
    · cases failed
    · cases queued

theorem crashed_await_not_settled : ∃ state,
    (gateway .wallClock .default).run (gateway .wallClock .default).initial (awaiting ++ [.crash]) =
      some state ∧
    (∀ i, (state.submits i).inFlight = false) ∧ ¬ state.db.Settled :=
  crash_not_settled (by decide)

/-- The event stays pending when the call of its submit ends in another exception. -/
example : ∃ state,
    (gateway .wallClock .default).run (gateway .wallClock .default).initial
      (awaiting ++ [.resume 0 .raised 0] ++ [.crash]) = some state ∧
    (∀ i, (state.submits i).inFlight = false) ∧ ¬ state.db.Settled :=
  crash_not_settled (by decide)

end EventLedger.EventGateway
