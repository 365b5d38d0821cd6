import EventLedger.EventGateway.Consistency

namespace EventLedger.EventGateway
open Library Python

variable {storage : Storage} {settings : Settings} {db next : Database} {process after : Process}
  {action : Action} {eventId : String} {event : Event}

/-- This action ends the await of the submit that owns the event, or of the worker that holds it, and
its outcome decides the status. -/
inductive Decides (settings : Settings) (process : Process) (eventId : String) :
    Action → ProcessingStatus → Prop where
  | submit (i : Nat) (submission : Submission) (event : Event) (outcome : CallOutcome) (now : Rat)
      (owned : (process.submits i).owned = some (submission, event))
      (own : submission.command.eventId = eventId) :
      Decides settings process eventId (.resume i outcome now) (settledStatus settings outcome)
  | worker (delivery : PendingDelivery) (event : Event) (outcome : CallOutcome) (now : Rat)
      (draw : Draw) (held : process.worker.held = some (delivery, event))
      (own : event.eventId = eventId) :
      Decides settings process eventId (.deliver outcome now draw) (deliveredStatus outcome)

theorem Submit.Effect.decides {i : Nat} {submit : Submit}
    (effect : Submit.Effect storage settings process.db after.db i action (process.submits i) submit)
    (present : after.db.events.get eventId = some event) :
    (∃ earlier, process.db.events.get eventId = some earlier ∧
        earlier.processingStatus = event.processingStatus) ∨
      event.processingStatus = .pending ∨
      Decides settings process eventId action event.processingStatus := by
  cases effect with
  | silent _ same =>
      exact .inl ⟨event, (congrArg Entry.event (same eventId)).symm.trans present, rfl⟩
  | insert submission _ _ _ _ changed =>
      rcases event_of_changed changed present with ⟨_, inserted⟩ | ⟨_, stored⟩
      · obtain rfl := Option.some.inj inserted
        exact .inr (.inl rfl)
      · exact .inl ⟨event, stored, rfl⟩
  | settle submission entry earlier _ _ _ status _ changed =>
      rcases event_of_changed changed present with ⟨own, moved⟩ | ⟨_, stored⟩
      · obtain ⟨outcome, now, rfl, decided⟩ := status
        obtain rfl := Option.some.inj (moved.symm.trans decided)
        exact .inr (.inr (.submit i submission _ outcome now earlier own.symm))
      · exact .inl ⟨event, stored, rfl⟩

theorem Worker.Effect.decides
    (effect : Worker.Effect storage process.db after.db action process.worker after.worker)
    (present : after.db.events.get eventId = some event) :
    (∃ earlier, process.db.events.get eventId = some earlier ∧
        earlier.processingStatus = event.processingStatus) ∨
      Decides settings process eventId action event.processingStatus := by
  cases effect with
  | silent _ same | call _ _ _ _ same =>
      exact .inl ⟨event, (congrArg Entry.event (same eventId)).symm.trans present, rfl⟩
  | deliver delivery held entry earlier _ _ _ status _ changed =>
      rcases event_of_changed changed present with ⟨own, moved⟩ | ⟨_, stored⟩
      · obtain ⟨outcome, now, draw, rfl, decided⟩ := status
        obtain rfl := Option.some.inj (moved.symm.trans decided)
        exact .inr (.worker delivery held outcome now draw earlier own.symm)
      · exact .inl ⟨event, stored, rfl⟩

/-- A status is old, or pending, or decided by the outcome that the step hands to its caller. -/
theorem Process.Consistent.decides (consistent : process.Consistent storage)
    (taken : process.step storage settings action = some after)
    (present : after.db.events.get eventId = some event) :
    (∃ earlier, process.db.events.get eventId = some earlier ∧
        earlier.processingStatus = event.processingStatus) ∨
      event.processingStatus = .pending ∨
      Decides settings process eventId action event.processingStatus := by
  rcases Process.step_cases taken with
    ⟨i, submit, step, _, _⟩ | ⟨step, _⟩ | ⟨_, rfl⟩
  · exact (step.effect (consistent.owns i)).decides present
  · exact ((step.effect consistent.valid consistent.current).decides present).imp_right .inr
  · exact .inl ⟨event, present, rfl⟩

end EventLedger.EventGateway
