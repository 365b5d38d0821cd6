import EventLedger.EventGateway.Classification

namespace EventLedger.EventGateway
open Library Python

variable {storage : Storage} {settings : Settings} {db next : Database} {process after : Process}
  {action : Action} {eventId : String} {submission : Submission}

/-- The event is stored as `FAILED`. -/
def Database.Failed (db : Database) (eventId : String) : Prop :=
  ∃ event, db.events.get eventId = some event ∧ event.processingStatus = .failed

/-- A failed event stays failed. -/
theorem Database.Failed.moves (failed : db.Failed eventId) (moves : db.Moves storage next) :
    next.Failed eventId := by
  obtain ⟨event, present, status⟩ := failed
  obtain ⟨later, found, _, same | changed⟩ := moves.advances present
  · exact ⟨later, found, same.trans status⟩
  · rw [ProcessingStatus.final_stays (by rw [status]; rfl)] at changed
    cases changed

/-- A submit that reports the Account Service as unavailable has stored its event as `FAILED`. -/
def Submit.Reporting (db : Database) (submission : Submission) : Submit → Prop
  | .idle => False
  | .received own | .inserting own | .conflicted own | .stored own _ | .calling own _ =>
      own = submission
  | .recording _ answer | .answered answer =>
      answer = accountServiceUnavailable → db.Failed submission.command.eventId

theorem Submit.Reporting.moves {submit : Submit} (reporting : submit.Reporting db submission)
    (moves : db.Moves storage next) : submit.Reporting next submission := by
  cases submit with
  | recording | answered => exact fun unavailable => (reporting unavailable).moves moves
  | idle | received | inserting | conflicted | stored | calling => exact reporting

/-- A lookup reports a replay, a conflict or an error. -/
theorem Submission.Finds.reporting {submit : Submit} (finds : submission.Finds db submit) :
    submit.Reporting db submission := by
  cases finds
  all_goals
    intro unavailable
    cases unavailable

/-- Only an await that settles its event as `FAILED` reports the Account Service as unavailable. -/
theorem Submission.settle_failed {event : Event} {outcome : CallOutcome} {now : Rat} {work : Work}
    {later : Submit} {answer : Answer} (disabled : settings.asyncFallbackEnabled = false)
    (settled : submission.settle settings event db now outcome = some (work, later))
    (reports : later = .answered answer ∨ ∃ record, later = .recording record answer)
    (unavailable : answer = accountServiceUnavailable) :
    settledStatus settings outcome = .failed := by
  subst unavailable
  cases Submission.settles settled with
  | rejected response error => exact if_pos error
  | applied =>
      rcases reports with answered | ⟨record, recording⟩
      · cases answered
      · cases recording
  | queued | failed => simp [settledStatus, disabled]

/-- Every local step of a submit keeps the report true. -/
theorem Submit.Step.reporting {i : Nat} {before later : Submit}
    (disabled : settings.asyncFallbackEnabled = false)
    (step : Submit.Step storage settings db i action before later next)
    (owns : before.Owns storage db)
    (moves : db.Moves storage next) (reporting : before.Reporting db submission) :
    later.Reporting next submission := by
  cases step with
  | arrive => exact reporting.elim
  | lookup own =>
      obtain rfl := reporting
      rcases own.lookup_cases db with ⟨_, inserts⟩ | finds
      · rw [inserts]
        rfl
      · exact finds.reporting
  | insert | rollback | call => exact reporting
  | relookup own =>
      obtain rfl := reporting
      rcases own.relookup_cases db with ⟨_, conflicts⟩ | finds
      · rw [conflicts]
        intro unavailable
        cases unavailable
      · exact finds.reporting
  | settle own event outcome now settled committed =>
      obtain rfl := reporting
      have step : Submit.Step storage settings db i (.resume i outcome now) (.calling own event)
          later next := .settle own event outcome now settled committed
      obtain ⟨_, owned, _, events⟩ := step.resumed owns
      obtain ⟨rfl, rfl⟩ := Prod.mk.inj (Option.some.inj owned)
      have failed (decided : settledStatus settings outcome = .failed) :
          next.Failed own.command.eventId := by
        refine ⟨_, (events _).trans (if_pos rfl), ?_⟩
        rw [decided]
        rfl
      rcases Submission.settle_ends settled with ⟨answer, rfl⟩ | ⟨record, answer, rfl, _⟩
      · exact fun unavailable =>
          failed (Submission.settle_failed disabled settled (.inl rfl) unavailable)
      · exact fun unavailable =>
          failed (Submission.settle_failed disabled settled (.inr ⟨record, rfl⟩) unavailable)
  | stale | raise =>
      intro unavailable
      cases unavailable
  | record => exact fun unavailable => (reporting unavailable).moves moves

/-- Every step of a process without a crash keeps the report of a submit true. -/
theorem Process.Consistent.reporting {i : Nat} (consistent : process.Consistent storage)
    (disabled : settings.asyncFallbackEnabled = false) (running : action ≠ .crash)
    (taken : process.step storage settings action = some after)
    (reporting : (process.submits i).Reporting process.db submission) :
    (after.submits i).Reporting after.db submission := by
  have moves := (consistent.step taken).2
  rcases Process.step_cases taken with
    ⟨j, submit, step, submits, _⟩ | ⟨_, submits⟩ | ⟨crashed, _⟩
  · rw [submits]
    by_cases own : i = j
    · subst own
      rw [Function.update_self]
      exact step.reporting disabled (consistent.owns i) moves reporting
    · rw [Function.update_of_ne own]
      exact reporting.moves moves
  · rw [submits]
    exact reporting.moves moves
  · exact absurd crashed running

/-- A stored event is answered without another call. -/
theorem Submission.lookup_of_present {event : Event}
    (present : db.events.get submission.command.eventId = some event) :
    (∃ answer, submission.lookup db = .answered answer) ∨
      ∃ record answer, submission.lookup db = .recording record answer := by
  rcases submission.lookup_cases db with ⟨absent, _⟩ | finds
  · rw [present] at absent
    cases absent
  · generalize submission.lookup db = submit at finds
    cases finds with
    | overflow => exact .inl ⟨_, rfl⟩
    | replay | conflict => exact .inr ⟨_, _, rfl⟩

end EventLedger.EventGateway
