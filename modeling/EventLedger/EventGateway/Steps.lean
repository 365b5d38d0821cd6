import EventLedger.EventGateway.Process

namespace EventLedger.EventGateway
open Library Python

variable {storage : Storage} {settings : Settings} {process next : Process} {action : Action}

/-- A lookup that finds a stored event compares it with the command. -/
inductive Submission.Finds (submission : Submission) (db : Database) : Submit → Prop where
  | overflow (existing : Event)
      (present : db.events.get submission.command.eventId = some existing)
      (compared : sameEvent existing submission.command = none) :
      Finds submission db (.answered .unhandled)
  | replay (existing : Event)
      (present : db.events.get submission.command.eventId = some existing)
      (compared : sameEvent existing submission.command = some true) :
      Finds submission db (submission.replay existing)
  | conflict (existing : Event)
      (present : db.events.get submission.command.eventId = some existing)
      (compared : sameEvent existing submission.command = some false)
      (details : Option AuditDetails) (message : String) :
      Finds submission db (submission.conflict details message)

/-- The first lookup prepares an insert or finds a stored event. -/
theorem Submission.lookup_cases (submission : Submission) (db : Database) :
    (db.events.get submission.command.eventId = none ∧
        submission.lookup db = .inserting submission) ∨
      submission.Finds db (submission.lookup db) := by
  unfold lookup
  split
  · next existing present =>
      split
      · next compared => exact .inr (.overflow existing present compared)
      · next compared => exact .inr (.conflict existing present compared _ _)
      · next compared => exact .inr (.replay existing present compared)
  · next absent => exact .inl ⟨absent, rfl⟩

/-- The second lookup reports a conflict or finds a stored event. -/
theorem Submission.relookup_cases (submission : Submission) (db : Database) :
    (db.events.get submission.command.eventId = none ∧
        submission.relookup db = submission.conflict none "eventId already exists") ∨
      submission.Finds db (submission.relookup db) := by
  unfold relookup
  split
  · next existing present =>
      split
      · next compared => exact .inr (.overflow existing present compared)
      · next compared => exact .inr (.replay existing present compared)
      · next compared => exact .inr (.conflict existing present compared _ _)
  · next absent => exact .inl ⟨absent, rfl⟩

/-- This relation lists every end of an await of a submit. -/
inductive Submission.Settles (settings : Settings) (submission : Submission) (event : Event)
    (db : Database) (now : Rat) : CallOutcome → Work → Submit → Prop where
  | rejected (response : Response) (error : 400 ≤ response.statusCode) :
      Settles settings submission event db now (.response response)
        ⟨event.assign .failed, none, []⟩ (submission.rejected response)
  | applied (response : Response) (success : ¬ 400 ≤ response.statusCode) :
      Settles settings submission event db now (.response response)
        ⟨event.assign .applied, none, []⟩
        (.recording (submission.record .eventApplied .success none)
          (.returned { event with processingStatus := .applied } true))
  | queued (message : String) (enabled : settings.asyncFallbackEnabled) :
      Settles settings submission event db now (.unavailable message)
        ⟨event.assign .queued, some (submission.enqueue db now),
          [submission.record .eventQueued .queued
            (some (.reason "account service unavailable"))]⟩
        (.answered (.returned { event with processingStatus := .queued } true))
  | failed (message : String) (disabled : ¬ settings.asyncFallbackEnabled) :
      Settles settings submission event db now (.unavailable message)
        ⟨event.assign .failed, none, []⟩
        (.recording (submission.record .eventProcessingFailed .failure
          (some (.reason "account service unavailable"))) accountServiceUnavailable)

theorem Submission.settles {submission : Submission} {event : Event} {db : Database}
    {outcome : CallOutcome} {now : Rat} {work : Work} {after : Submit}
    (settled : submission.settle settings event db now outcome = some (work, after)) :
    submission.Settles settings event db now outcome work after := by
  cases outcome with
  | response response =>
      simp only [settle] at settled
      split at settled
      · next error =>
          cases settled
          exact .rejected response error
      · next success =>
          cases settled
          exact .applied response success
  | unavailable message =>
      simp only [settle] at settled
      split at settled
      · next enabled =>
          cases settled
          exact .queued message enabled
      · next disabled =>
          cases settled
          exact .failed message disabled
  | raised => cases settled

/-- Only an exception of the client escapes from the end of an await. -/
theorem Submission.raised_of_settle {submission : Submission} {event : Event} {db : Database}
    {outcome : CallOutcome} {now : Rat}
    (escaped : submission.settle settings event db now outcome = none) : outcome = .raised := by
  cases outcome with
  | raised => rfl
  | response | unavailable =>
      simp only [settle] at escaped
      split at escaped <;> cases escaped

/-- The end of an await is answered at once or after a record of its outcome. -/
theorem Submission.settle_ends {submission : Submission} {event : Event} {db : Database}
    {outcome : CallOutcome} {now : Rat} {work : Work} {after : Submit}
    (settled : submission.settle settings event db now outcome = some (work, after)) :
    (∃ answer, after = .answered answer) ∨
      ∃ record answer, after = .recording record answer ∧
        (record.action = .eventApplied ∨ record.action = .eventProcessingFailed) := by
  cases Submission.settles settled with
  | rejected response =>
      unfold rejected
      split
      · exact .inl ⟨_, rfl⟩
      · exact .inr ⟨_, _, rfl, .inr rfl⟩
  | applied => exact .inr ⟨_, _, rfl, .inl rfl⟩
  | queued => exact .inl ⟨_, rfl⟩
  | failed => exact .inr ⟨_, _, rfl, .inr rfl⟩

/-- This relation lists every end of an attempt of the worker. -/
inductive Delivered (settings : Settings) (delivery : PendingDelivery) (event : Event)
    (traceId : String) (now : Rat) (draw : Draw) : CallOutcome → Work → Bool → Prop where
  | rescheduled (message : String) :
      Delivered settings delivery event traceId now draw (.unavailable message)
        ⟨none, some (.reschedule delivery.eventId (delivery.attemptCount + 1) message
            (now + backoffSeconds settings (delivery.attemptCount + 1) draw)),
          [workerRecord event traceId .eventQueueRetryScheduled .retry
            (some (.retry (delivery.attemptCount + 1)
              (now + backoffSeconds settings (delivery.attemptCount + 1) draw)))]⟩ false
  | rejected (response : Response) (error : 400 ≤ response.statusCode) :
      Delivered settings delivery event traceId now draw (.response response)
        ⟨event.assign .failed, some (.delete delivery.eventId),
          [workerRecord event traceId .eventQueueRejected .failure
            (some (.downstreamStatus response.statusCode))]⟩ true
  | applied (response : Response) (success : ¬ 400 ≤ response.statusCode) :
      Delivered settings delivery event traceId now draw (.response response)
        ⟨event.assign .applied, some (.delete delivery.eventId),
          [workerRecord event traceId .eventAppliedFromQueue .success
            (some (.attempts (delivery.attemptCount + 1)))]⟩ true

section Deliver
variable {delivery : PendingDelivery} {event : Event} {traceId : String} {now : Rat} {draw : Draw}
  {outcome : CallOutcome} {work : Work} {done : Bool}

theorem delivered_of_deliver
    (delivered : deliver settings delivery event traceId now draw outcome = some (work, done)) :
    Delivered settings delivery event traceId now draw outcome work done := by
  cases outcome with
  | response response =>
      simp only [deliver] at delivered
      split at delivered
      · next error =>
          cases delivered
          exact .rejected response error
      · next success =>
          cases delivered
          exact .applied response success
  | unavailable message =>
      cases delivered
      exact .rescheduled message
  | raised => cases delivered

/-- Only an exception of the client escapes from an attempt. -/
theorem raised_of_deliver
    (escaped : deliver settings delivery event traceId now draw outcome = none) :
    outcome = .raised := by
  cases outcome with
  | raised => rfl
  | response response =>
      simp only [deliver] at escaped
      split at escaped <;> cases escaped
  | unavailable => cases escaped

end Deliver

/-- This relation lists every local step of one submit. -/
inductive Submit.Step (storage : Storage) (settings : Settings) (db : Database) (i : Nat) :
    Action → Submit → Submit → Database → Prop where
  | arrive (submission : Submission) :
      Step storage settings db i (.arrive i submission) .idle (.received submission) db
  | lookup (submission : Submission) :
      Step storage settings db i (.advance i) (.received submission) (submission.lookup db) db
  | insert {next : Database} (submission : Submission)
      (committed : db.commit storage ⟨some (.insert submission.event), none, []⟩ = some next) :
      Step storage settings db i (.advance i) (.inserting submission)
        (.stored submission (submission.event.stored storage)) next
  | rollback (submission : Submission)
      (violated : db.commit storage ⟨some (.insert submission.event), none, []⟩ = none) :
      Step storage settings db i (.advance i) (.inserting submission) (.conflicted submission) db
  | relookup (submission : Submission) :
      Step storage settings db i (.advance i) (.conflicted submission) (submission.relookup db) db
  | call {next : Database} (submission : Submission) (event : Event)
      (committed : db.commit storage
        ⟨none, none, [submission.record .eventStored .success none]⟩ = some next) :
      Step storage settings db i (.advance i) (.stored submission event)
        (.calling submission event) next
  | settle {next : Database} {work : Work} {after : Submit} (submission : Submission)
      (event : Event) (outcome : CallOutcome) (now : Rat)
      (settled : submission.settle settings event db now outcome = some (work, after))
      (committed : db.commit storage work = some next) :
      Step storage settings db i (.resume i outcome now) (.calling submission event) after next
  | stale {work : Work} {after : Submit} (submission : Submission) (event : Event)
      (outcome : CallOutcome) (now : Rat)
      (settled : submission.settle settings event db now outcome = some (work, after))
      (violated : db.commit storage work = none) :
      Step storage settings db i (.resume i outcome now) (.calling submission event)
        (.answered .databaseError) db
  | raise (submission : Submission) (event : Event) (outcome : CallOutcome) (now : Rat)
      (escaped : submission.settle settings event db now outcome = none) :
      Step storage settings db i (.resume i outcome now) (.calling submission event)
        (.answered .unhandled) db
  | record {next : Database} (record : AuditRecord) (answer : Answer)
      (committed : db.commit storage ⟨none, none, [record]⟩ = some next) :
      Step storage settings db i (.advance i) (.recording record answer) (.answered answer) next

/-- This relation lists every local step of the worker. -/
inductive Worker.Step (storage : Storage) (settings : Settings) (db : Database) :
    Action → Worker → Worker → Database → Prop where
  | poll (now : Rat) (enabled : settings.asyncFallbackEnabled) :
      Step storage settings db (.poll now) .idle
        (.passing (dueEventIds db.deliveries settings.asyncFallbackBatchSize now) 0) db
  | absent (fresh eventId : String) (remaining : List String) (processed : Nat)
      (none : db.deliveries.get eventId = none) :
      Step storage settings db (.take fresh) (.passing (eventId :: remaining) processed)
        (.passing remaining processed) db
  | orphan {next : Database} (fresh eventId : String) (remaining : List String) (processed : Nat)
      (delivery : PendingDelivery) (present : db.deliveries.get eventId = some delivery)
      (none : db.events.get eventId = none)
      (committed : db.commit storage ⟨Option.none, some (.delete delivery.eventId), []⟩ = some next) :
      Step storage settings db (.take fresh) (.passing (eventId :: remaining) processed)
        (.passing remaining processed) next
  | call (fresh eventId : String) (remaining : List String) (processed : Nat)
      (delivery : PendingDelivery) (event : Event)
      (queued : db.deliveries.get eventId = some delivery)
      (stored : db.events.get eventId = some event) :
      Step storage settings db (.take fresh) (.passing (eventId :: remaining) processed)
        (.calling delivery event (normalizeTraceId (some delivery.traceId) fresh) remaining
          processed) db
  | deliver {next : Database} {work : Work} {done : Bool} (delivery : PendingDelivery)
      (event : Event) (traceId : String) (remaining : List String) (processed : Nat)
      (outcome : CallOutcome) (now : Rat) (draw : Draw)
      (delivered : EventGateway.deliver settings delivery event traceId now draw outcome =
        some (work, done))
      (committed : db.commit storage work = some next) :
      Step storage settings db (.deliver outcome now draw)
        (.calling delivery event traceId remaining processed)
        (.passing remaining (if done then processed + 1 else processed)) next
  | stale {work : Work} {done : Bool} (delivery : PendingDelivery) (event : Event)
      (traceId : String) (remaining : List String) (processed : Nat) (outcome : CallOutcome)
      (now : Rat) (draw : Draw)
      (delivered : EventGateway.deliver settings delivery event traceId now draw outcome =
        some (work, done))
      (violated : db.commit storage work = none) :
      Step storage settings db (.deliver outcome now draw)
        (.calling delivery event traceId remaining processed) .idle db
  | raise (delivery : PendingDelivery) (event : Event) (traceId : String)
      (remaining : List String) (processed : Nat) (outcome : CallOutcome) (now : Rat) (draw : Draw)
      (escaped : EventGateway.deliver settings delivery event traceId now draw outcome = none) :
      Step storage settings db (.deliver outcome now draw)
        (.calling delivery event traceId remaining processed) .idle db
  | rest (processed : Nat) :
      Step storage settings db .rest (.passing [] processed) .idle db

/-- Some actions name the submit that they advance. -/
def Action.call : Action → Option Nat
  | .arrive i _ | .advance i | .resume i _ _ => some i
  | .poll _ | .take _ | .deliver _ _ _ | .rest | .crash => none

theorem Submit.Step.call_eq {db later : Database} {i : Nat} {before after : Submit}
    (step : Submit.Step storage settings db i action before after later) :
    action.call = some i := by
  cases step <;> rfl

theorem Worker.Step.call_eq {db later : Database} {before after : Worker}
    (step : Worker.Step storage settings db action before after later) : action.call = none := by
  cases step <;> rfl

/-- A submit at its await only resumes. -/
theorem Submit.Step.resumes {db later : Database} {i : Nat} {before after : Submit}
    {submission : Submission} {event : Event}
    (step : Submit.Step storage settings db i action before after later)
    (awaits : before = .calling submission event) :
    ∃ outcome now, action = .resume i outcome now := by
  subst awaits
  cases step with
  | settle _ _ outcome now | stale _ _ outcome now | raise _ _ outcome now =>
      exact ⟨outcome, now, rfl⟩

/-- A worker at its await only delivers. -/
theorem Worker.Step.delivers {db later : Database} {before after : Worker}
    {delivery : PendingDelivery} {event : Event} {traceId : String} {remaining : List String}
    {processed : Nat} (step : Worker.Step storage settings db action before after later)
    (awaits : before = .calling delivery event traceId remaining processed) :
    ∃ outcome now draw, action = .deliver outcome now draw := by
  subst awaits
  cases step with
  | deliver _ _ _ _ _ outcome now draw | stale _ _ _ _ _ outcome now draw
  | raise _ _ _ _ _ outcome now draw => exact ⟨outcome, now, draw, rfl⟩

/-- A submit that advances takes one of its local steps. -/
theorem Submit.step_of_advance {db later : Database} {before after : Submit} (i : Nat)
    (advanced : before.advance storage db = some (after, later)) :
    Submit.Step storage settings db i (.advance i) before after later := by
  cases before with
  | received submission =>
      cases advanced
      exact .lookup submission
  | inserting submission =>
      simp only [advance] at advanced
      split at advanced
      · next committed =>
          cases advanced
          exact .insert submission committed
      · next violated =>
          cases advanced
          exact .rollback submission violated
  | conflicted submission =>
      cases advanced
      exact .relookup submission
  | stored submission event =>
      simp only [advance, Option.map_eq_some_iff, Prod.mk.injEq] at advanced
      obtain ⟨_, committed, rfl, rfl⟩ := advanced
      exact .call submission event committed
  | recording record answer =>
      simp only [advance, Option.map_eq_some_iff, Prod.mk.injEq] at advanced
      obtain ⟨_, committed, rfl, rfl⟩ := advanced
      exact .record record answer committed
  | idle | calling | answered => cases advanced

/-- A submit that resumes takes one of its local steps. -/
theorem Submit.step_of_resume {db later : Database} {before after : Submit} {i : Nat}
    {outcome : CallOutcome} {now : Rat}
    (resumed : before.resume storage settings db outcome now = some (after, later)) :
    Submit.Step storage settings db i (.resume i outcome now) before after later := by
  cases before with
  | calling submission event =>
      simp only [resume] at resumed
      split at resumed
      · next settled =>
          split at resumed
          · next committed =>
              cases resumed
              exact .settle submission event outcome now settled committed
          · next violated =>
              cases resumed
              exact .stale submission event outcome now settled violated
      · next escaped =>
          cases resumed
          exact .raise submission event outcome now escaped
  | idle | received | inserting | conflicted | stored | recording | answered => cases resumed

/-- A worker that takes an event id takes one of its local steps. -/
theorem Worker.step_of_take {db later : Database} {before after : Worker} {fresh : String}
    (taken : before.take storage db fresh = some (after, later)) :
    Worker.Step storage settings db (.take fresh) before after later := by
  cases before with
  | passing remaining processed =>
      cases remaining with
      | nil => cases taken
      | cons eventId remaining =>
          simp only [take, EventGateway.take] at taken
          cases present : db.deliveries.get eventId with
          | none =>
              simp only [present] at taken
              cases taken
              exact .absent fresh eventId remaining processed present
          | some delivery =>
              simp only [present] at taken
              cases stored : db.events.get eventId with
              | none =>
                  simp only [stored] at taken
                  split at taken
                  · next committed =>
                      cases taken
                      exact .orphan fresh eventId remaining processed delivery present stored
                        committed
                  · next violated =>
                      simp [Database.commit, EventWrite.flush, DeliveryWrite.flush] at violated
              | some event =>
                  simp only [stored] at taken
                  cases taken
                  exact .call fresh eventId remaining processed delivery event present stored
  | idle | calling => cases taken

/-- A worker that delivers takes one of its local steps. -/
theorem Worker.step_of_deliver {db later : Database} {before after : Worker}
    {outcome : CallOutcome} {now : Rat} {draw : Draw}
    (delivered : before.deliver storage settings db outcome now draw = some (after, later)) :
    Worker.Step storage settings db (.deliver outcome now draw) before after later := by
  cases before with
  | calling delivery event traceId remaining processed =>
      simp only [deliver] at delivered
      split at delivered
      · next settled =>
          split at delivered
          · next committed =>
              cases delivered
              exact .deliver delivery event traceId remaining processed outcome now draw settled
                committed
          · next violated =>
              cases delivered
              exact .stale delivery event traceId remaining processed outcome now draw settled
                violated
      · next escaped =>
          cases delivered
          exact .raise delivery event traceId remaining processed outcome now draw escaped
  | idle | passing => cases delivered

/-- A step of the process is a local step of one submit or of the worker, or a crash. -/
theorem Process.step_cases (taken : process.step storage settings action = some next) :
    (∃ i submit, Submit.Step storage settings process.db i action (process.submits i) submit next.db ∧
        next.submits = Function.update process.submits i submit ∧ next.worker = process.worker) ∨
      (Worker.Step storage settings process.db action process.worker next.worker next.db ∧
        next.submits = process.submits) ∨
      (action = .crash ∧ next = .crashed process.db) := by
  cases action with
  | arrive i submission =>
      simp only [step] at taken
      split at taken
      · next idle =>
          obtain rfl := Option.some.inj taken
          exact .inl ⟨i, _, idle ▸ .arrive submission, rfl, rfl⟩
      · cases taken
  | advance i =>
      obtain ⟨⟨submit, db⟩, advanced, rfl⟩ := Option.map_eq_some_iff.mp taken
      exact .inl ⟨i, submit, Submit.step_of_advance i advanced, rfl, rfl⟩
  | resume i outcome now =>
      obtain ⟨⟨submit, db⟩, resumed, rfl⟩ := Option.map_eq_some_iff.mp taken
      exact .inl ⟨i, submit, Submit.step_of_resume resumed, rfl, rfl⟩
  | poll now =>
      simp only [step] at taken
      split at taken
      · next idle =>
          obtain ⟨enabled, same⟩ := Option.ite_none_right_eq_some.mp taken
          obtain rfl := Option.some.inj same
          exact .inr (.inl ⟨idle ▸ .poll now enabled, rfl⟩)
      · cases taken
  | take fresh =>
      obtain ⟨⟨worker, db⟩, took, rfl⟩ := Option.map_eq_some_iff.mp taken
      exact .inr (.inl ⟨Worker.step_of_take took, rfl⟩)
  | deliver outcome now draw =>
      obtain ⟨⟨worker, db⟩, delivered, rfl⟩ := Option.map_eq_some_iff.mp taken
      exact .inr (.inl ⟨Worker.step_of_deliver delivered, rfl⟩)
  | rest =>
      simp only [step] at taken
      split at taken
      · next processed passing =>
          obtain rfl := Option.some.inj taken
          exact .inr (.inl ⟨passing ▸ .rest processed, rfl⟩)
      · cases taken
  | crash => exact .inr (.inr ⟨rfl, (Option.some.inj taken).symm⟩)

end EventLedger.EventGateway
