import EventLedger.EventGateway.Consistency

namespace EventLedger.EventGateway
open Library Python

variable {storage : Storage} {settings : Settings} {db next : Database} {process after : Process}
  {action : Action}

/-- The process carries the payload of each owned event and of each queued delivery. -/
def Process.Carries (process : Process) (payload : Payload) : Prop :=
  (∃ i submission event, (process.submits i).owned = some (submission, event) ∧
      submission.payload = payload) ∨
    ∃ eventId delivery, process.db.deliveries.get eventId = some delivery ∧
      delivery.payloadJson = payload

/-- A step stores a received submission as a new event. -/
def Process.Stores (storage : Storage) (process after : Process) (payload : Payload) : Prop :=
  ∃ (i : Nat) (submission : Submission), (process.submits i).submission = some submission ∧
    submission.payload = payload ∧ process.db.events.get payload.eventId = none ∧
    after.db.events.get payload.eventId = some (submission.row storage)

/-- The step carries only old payloads and at most one new payload, which it stores. -/
def Process.CarriesOn (storage : Storage) (process after : Process) : Prop :=
  (∀ payload, after.Carries payload → process.Carries payload) ∨
    ∃ fresh, process.Stores storage after fresh ∧
      ∀ payload, after.Carries payload → process.Carries payload ∨ payload = fresh

/-- A payload that an unchanged submit owns is an old payload. -/
theorem carries_of_owned {submit : Submit} {i : Nat} {payload : Payload}
    (submits : after.submits = Function.update process.submits i submit)
    (carried : ∃ j submission event, (after.submits j).owned = some (submission, event) ∧
      submission.payload = payload) :
    (∃ submission event, submit.owned = some (submission, event) ∧ submission.payload = payload) ∨
      process.Carries payload := by
  obtain ⟨j, submission, event, owned, same⟩ := carried
  rcases owned_of_update (submits ▸ owned) with ⟨_, new⟩ | ⟨_, old⟩
  · exact .inl ⟨submission, event, new, same⟩
  · exact .inr (.inl ⟨j, submission, event, old, same⟩)

theorem Submit.Effect.carries {i : Nat} {submit : Submit}
    (effect : Submit.Effect storage settings process.db after.db i action (process.submits i) submit)
    (submits : after.submits = Function.update process.submits i submit) :
    process.CarriesOn storage after := by
  cases effect with
  | silent kept same =>
      refine .inl fun payload carried => ?_
      rcases carried with owned | ⟨eventId, delivery, queued, sent⟩
      · rcases carries_of_owned submits owned with ⟨submission, event, new, sent⟩ | old
        · rcases kept with kept | ⟨kept, _⟩
          · exact .inl ⟨i, submission, event, kept ▸ new, sent⟩
          · rw [kept] at new
            cases new
        · exact old
      · have entry := congrArg Entry.delivery (same eventId)
        exact .inr ⟨eventId, delivery, entry.symm.trans queued, sent⟩
  | insert submission fresh received earlier later changed =>
      have stored := congrArg Entry.event (changed submission.command.eventId)
      rw [if_pos rfl] at stored
      refine .inr ⟨submission.payload, ⟨i, submission, received, rfl, fresh, stored⟩,
        fun payload carried => ?_⟩
      rcases carried with owned | ⟨eventId, delivery, queued, sent⟩
      · rcases carries_of_owned submits owned with ⟨other, event, new, sent⟩ | old
        · rw [later] at new
          obtain ⟨rfl, rfl⟩ := Prod.mk.inj (Option.some.inj new)
          exact .inr sent.symm
        · exact .inl old
      · refine .inl (.inr ⟨eventId, delivery, ?_, sent⟩)
        rcases delivery_of_changed changed queued with ⟨_, old⟩ | ⟨_, old⟩
        · exact old
        · exact old
  | settle submission entry earlier later _ _ _ payloads changed =>
      refine .inl fun payload carried => ?_
      rcases carried with owned | ⟨eventId, delivery, queued, sent⟩
      · rcases carries_of_owned submits owned with ⟨other, event, new, _⟩ | old
        · rw [later] at new
          cases new
        · exact old
      · rcases delivery_of_changed changed queued with ⟨_, moved⟩ | ⟨_, old⟩
        · have payload := payloads delivery moved
          exact .inl ⟨i, submission, _, earlier, payload ▸ sent⟩
        · exact .inr ⟨eventId, delivery, old, sent⟩

/-- A step of the worker carries old payloads. -/
theorem Worker.Effect.carries
    (effect : Worker.Effect storage process.db after.db action process.worker after.worker)
    (submits : after.submits = process.submits) {payload : Payload}
    (carried : after.Carries payload) : process.Carries payload := by
  rcases carried with ⟨i, submission, event, owned, same⟩ | ⟨eventId, delivery, queued, same⟩
  · exact .inl ⟨i, submission, event, submits ▸ owned, same⟩
  · cases effect with
    | silent _ unchanged | call _ _ _ _ unchanged =>
        have entry := congrArg Entry.delivery (unchanged eventId)
        exact .inr ⟨eventId, delivery, entry.symm.trans queued, same⟩
    | deliver held event entry earlier _ current _ _ payloads changed =>
        rcases delivery_of_changed changed queued with ⟨_, moved⟩ | ⟨_, old⟩
        · have sent := payloads delivery moved
          exact .inr ⟨event.eventId, held, congrArg Entry.delivery current, sent ▸ same⟩
        · exact .inr ⟨eventId, delivery, old, same⟩

/-- Only an insert lets the process carry a new payload. -/
theorem Process.Consistent.carries (consistent : process.Consistent storage)
    (taken : process.step storage settings action = some after) :
    process.CarriesOn storage after := by
  rcases Process.step_cases taken with
    ⟨i, submit, step, submits, _⟩ | ⟨step, submits⟩ | ⟨_, rfl⟩
  · exact (step.effect (consistent.owns i)).carries submits
  · exact .inl fun payload carried =>
      (step.effect consistent.valid consistent.current).carries submits carried
  · refine .inl fun payload carried => ?_
    rcases carried with ⟨_, _, _, owned, _⟩ | queued
    · cases owned
    · exact .inr queued

theorem Submission.Finds.submission {submission : Submission} {db : Database} {submit : Submit}
    (finds : submission.Finds db submit) : submit.submission = none := by
  cases finds <;> rfl

/-- A submit has its submission from its arrival. -/
theorem Submit.Step.submission {db next : Database} {i : Nat} {before after : Submit}
    (step : Submit.Step storage settings db i action before after next) {submission : Submission}
    (kept : after.submission = some submission) :
    before.submission = some submission ∨ action = .arrive i submission := by
  cases step with
  | arrive other =>
      obtain rfl := Option.some.inj kept
      exact .inr rfl
  | lookup other =>
      rcases other.lookup_cases db with ⟨_, inserts⟩ | finds
      · rw [inserts] at kept
        exact .inl kept
      · rw [finds.submission] at kept
        cases kept
  | insert | rollback | call => exact .inl kept
  | relookup other =>
      rcases other.relookup_cases db with ⟨_, conflicts⟩ | finds
      · rw [conflicts] at kept
        cases kept
      · rw [finds.submission] at kept
        cases kept
  | settle other event outcome now settled =>
      rcases Submission.settle_ends settled with ⟨_, rfl⟩ | ⟨_, _, rfl, _⟩ <;> cases kept
  | stale | raise | record => cases kept

/-- Every submission arrived at its own submit, or it was there before. -/
theorem Process.submission_of_step (taken : process.step storage settings action = some after)
    {i : Nat} {submission : Submission} (kept : (after.submits i).submission = some submission) :
    (process.submits i).submission = some submission ∨ action = .arrive i submission := by
  rcases Process.step_cases taken with
    ⟨j, submit, step, submits, _⟩ | ⟨_, submits⟩ | ⟨_, rfl⟩
  · rw [submits] at kept
    by_cases own : i = j
    · subst own
      rw [Function.update_self] at kept
      exact step.submission kept
    · rw [Function.update_of_ne own] at kept
      exact .inl kept
  · exact .inl (submits ▸ kept)
  · cases kept

end EventLedger.EventGateway
