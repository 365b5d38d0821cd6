import EventLedger.EventGateway.ConcurrentSubmits
import EventLedger.EventGateway.FailedEvents
import EventLedger.EventGateway.QueueAudit

namespace EventLedger.EventGateway
open Library Python

variable {storage : Storage} {settings : Settings} {db next : Database} {process after : Process}
  {action : Action} {eventId : String} {submission : Submission} {response : Response}
  {defaultDetail : DefaultDetail}

/-- An error body can be reported when it can be read and is an object whose error member is not null,
or when the web framework has a detail for its status. -/
def Response.Reportable (defaultDetail : DefaultDetail) (response : Response) : Prop :=
  ∃ entries, response.detail = some (.obj entries) ∧
    (entries.lookup "error" = some .null → (defaultDetail response.statusCode).isSome)

/-- A submit reports a downstream error when it ends with its status, the event is `FAILED` and one
record says so. -/
structure ReportsError (storage : Storage) (settings : Settings) (defaultDetail : DefaultDetail)
    (process : Process) (i : Nat) (eventId : String) (status : Nat) : Prop where
  progresses : ∀ last, (uninterrupted storage settings).Leads process last →
    (∃ answer, last.submits i = .answered answer) ∨
      ∃ after, last.step storage settings (.advance i) = some after
  answered : ∀ last answer, (uninterrupted storage settings).Leads process last →
    last.submits i = .answered answer →
      (∃ detail, answer.constructed defaultDetail = .httpException status detail) ∧
        last.db.Failed eventId ∧
        (last.db.recordsOf eventId .eventProcessingFailed).length = 1

section Answers

/-- An HTTP exception keeps its status unless it has no detail and the framework has none either. -/
theorem Answer.constructed_eq_httpException {status : Nat} {detail : Json} :
    (∃ text, (Answer.httpException status detail).constructed defaultDetail =
      .httpException status text) ↔ (detail = .null → (defaultDetail status).isSome) := by
  cases detail with
  | null => cases found : defaultDetail status <;> simp [constructed, found]
  | bool | int | float | str | arr | obj => simp [constructed]

/-- A rejection carries the downstream status exactly when its body can be reported. -/
theorem Answer.rejected_eq_httpException {status : Nat} {detail : Json} :
    (∃ text, (Answer.rejected status detail).constructed defaultDetail =
      .httpException status text) ↔
      ∃ entries, detail = .obj entries ∧
        (entries.lookup "error" = some .null → (defaultDetail status).isSome) := by
  cases detail with
  | obj entries =>
      rw [rejected, constructed_eq_httpException]
      cases found : entries.lookup "error" <;> simp [found]
  | null | bool | int | float | str | arr => simp [rejected, constructed]

end Answers

section Records

/-- A commit without such records keeps the records of an event with one action. -/
theorem Database.recordsOf_of_silent {records : List AuditRecord} {kind : AuditAction}
    (audit : next.audit = db.audit ++ records)
    (silent : ∀ record ∈ records, record.eventId = eventId → record.action ≠ kind) :
    next.recordsOf eventId kind = db.recordsOf eventId kind := by
  have none : records.filter (fun record =>
      decide (record.eventId = eventId) && decide (record.action = kind)) = [] := by
    refine List.filter_eq_nil_iff.mpr fun record member => ?_
    simpa using silent record member
  rw [recordsOf, audit, List.filter_append, none, List.append_nil, recordsOf]

/-- The end of an await of a submit writes at most a record of the queue. -/
theorem Submission.settle_records {event : Event} {outcome : CallOutcome} {now : Rat} {work : Work}
    {later : Submit} (settled : submission.settle settings event db now outcome = some (work, later))
    {record : AuditRecord} (member : record ∈ work.records) : record.action = .eventQueued := by
  cases Submission.settles settled with
  | rejected | applied | failed => cases member
  | queued =>
      rw [List.mem_singleton.mp member]
      rfl

/-- The end of an attempt of the worker writes a record of the queue. -/
theorem deliver_records {delivery : PendingDelivery} {event : Event} {traceId : String} {now : Rat}
    {draw : Draw} {outcome : CallOutcome} {work : Work} {done : Bool}
    (delivered : deliver settings delivery event traceId now draw outcome = some (work, done))
    {record : AuditRecord} (member : record ∈ work.records) : record.action.aboutQueue := by
  cases delivered_of_deliver delivered with
  | rescheduled | rejected | applied =>
      rw [List.mem_singleton.mp member]
      rfl

/-- A submit is failing an event when it is about to record its failed processing. -/
def Submit.Failing (eventId : String) (submit : Submit) : Prop :=
  ∃ record answer, submit = .recording record answer ∧ record.eventId = eventId ∧
    record.action = .eventProcessingFailed

theorem Submission.Finds.not_failing {submit : Submit} (finds : submission.Finds db submit) :
    ¬ submit.Failing eventId := by
  rintro ⟨record, answer, recording, _, action⟩
  cases finds
  all_goals
    cases recording
    try cases action

/-- The end of an await fails its own event only. -/
theorem Submission.settle_failing {event : Event} {outcome : CallOutcome} {now : Rat} {work : Work}
    {later : Submit} (settled : submission.settle settings event db now outcome = some (work, later))
    (failing : later.Failing eventId) :
    submission.command.eventId = eventId ∧ settledStatus settings outcome = .failed := by
  obtain ⟨record, answer, recording, own, action⟩ := failing
  cases Submission.settles settled with
  | rejected response error =>
      unfold Submission.rejected at recording
      split at recording
      · cases recording
      · cases recording
        exact ⟨own, if_pos error⟩
  | applied =>
      cases recording
      cases action
  | queued => cases recording
  | failed message disabled =>
      cases recording
      exact ⟨own, if_neg disabled⟩

/-- A downstream error is read as a rejection once the event is stored as `FAILED`. -/
theorem Submit.Step.error {i j : Nat} {now : Rat} {later : Submit}
    (step : Submit.Step storage settings db i (.resume j (.response response) now)
      (.calling submission (submission.row storage)) later next)
    (pending : db.entry submission.command.eventId = ⟨some (submission.row storage), none⟩)
    (error : 400 ≤ response.statusCode) : later = submission.rejected response := by
  cases step with
  | settle _ _ _ _ settled =>
      cases Submission.settles settled with
      | rejected => rfl
      | applied _ success => exact absurd error success
  | stale _ _ _ _ settled violated => exact absurd violated (settle_commits pending settled)
  | raise _ _ _ _ escaped => cases Submission.raised_of_settle escaped

/-- Only a failing submit adds a record of a failed processing. -/
theorem Submit.Step.records_kept {i : Nat} {before later : Submit}
    (step : Submit.Step storage settings db i action before later next)
    (quiet : ¬ before.Failing eventId) :
    next.recordsOf eventId .eventProcessingFailed =
      db.recordsOf eventId .eventProcessingFailed := by
  cases step with
  | arrive | lookup | rollback | relookup | stale | raise => rfl
  | insert submission committed | call submission _ committed =>
      refine Database.recordsOf_of_silent (Database.commit_eq_some committed).2.2
        fun record member _ => ?_
      simp_all [Submission.record]
  | settle _ _ _ _ settled committed =>
      refine Database.recordsOf_of_silent (Database.commit_eq_some committed).2.2
        fun record member _ => ?_
      rw [Submission.settle_records settled member]
      decide
  | record record answer committed =>
      refine Database.recordsOf_of_silent (Database.commit_eq_some committed).2.2
        fun other member own failed => ?_
      obtain rfl := List.mem_singleton.mp member
      exact quiet ⟨other, answer, rfl, own, failed⟩

theorem Worker.Step.records_kept {before later : Worker}
    (step : Worker.Step storage settings db action before later next) :
    next.recordsOf eventId .eventProcessingFailed =
      db.recordsOf eventId .eventProcessingFailed := by
  cases step with
  | poll | absent | call | stale | raise | rest => rfl
  | orphan _ _ _ _ _ _ _ committed =>
      exact Database.recordsOf_of_silent (Database.commit_eq_some committed).2.2
        fun record member => by cases member
  | deliver _ _ _ _ _ _ _ _ delivered committed =>
      refine Database.recordsOf_of_silent (Database.commit_eq_some committed).2.2
        fun record member _ failed => ?_
      have about := deliver_records delivered member
      rw [failed] at about
      cases about

/-- A submit begins to fail an event at the end of its own await, which stores the event as
`FAILED`. -/
theorem Submit.Step.failing {i : Nat} {before later : Submit}
    (step : Submit.Step storage settings db i action before later next)
    (owns : before.Owns storage db)
    (failing : later.Failing eventId) : ¬ db.Failed eventId ∧ next.Failed eventId := by
  cases step with
  | lookup submission =>
      rcases submission.lookup_cases db with ⟨_, inserts⟩ | finds
      · obtain ⟨_, _, recording, _⟩ := failing
        rw [inserts] at recording
        cases recording
      · exact absurd failing finds.not_failing
  | relookup submission =>
      rcases submission.relookup_cases db with ⟨_, conflicts⟩ | finds
      · obtain ⟨_, _, recording, _, action⟩ := failing
        rw [conflicts] at recording
        cases recording
        cases action
      · exact absurd failing finds.not_failing
  | settle submission event outcome now settled committed =>
      obtain ⟨rfl, pending⟩ := owns submission event rfl
      obtain ⟨rfl, failed⟩ := Submission.settle_failing settled failing
      have step : Submit.Step storage settings db i (.resume i outcome now)
          (.calling submission (submission.row storage)) later next :=
        .settle submission _ outcome now settled committed
      obtain ⟨_, owned, _, events⟩ := step.resumed owns
      obtain ⟨rfl, _⟩ := Prod.mk.inj (Option.some.inj owned)
      refine ⟨?_, _, (events _).trans (if_pos rfl), ?_⟩
      · rintro ⟨row, present, status⟩
        obtain rfl := Option.some.inj ((congrArg Entry.event pending).symm.trans present)
        cases status
      · rw [failed]
        rfl
  | arrive | insert | rollback | call | stale | raise | record =>
      obtain ⟨_, _, recording, _⟩ := failing
      cases recording

end Records

section Runs

/-- Nothing tells that the processing of an event has failed. -/
def Process.Unfailed (process : Process) (eventId : String) : Prop :=
  process.db.recordsOf eventId .eventProcessingFailed = [] ∧
    ∀ i, ¬ (process.submits i).Failing eventId

/-- Every step keeps the record of a failed processing behind the status. -/
theorem Process.Consistent.unfailed (consistent : process.Consistent storage)
    (taken : process.step storage settings action = some after)
    (held : process.db.Failed eventId ∨ process.Unfailed eventId) :
    after.db.Failed eventId ∨ after.Unfailed eventId := by
  rcases held with failed | ⟨records, quiet⟩
  · exact .inl (failed.moves (consistent.step taken).2)
  · rcases Process.step_cases taken with ⟨i, submit, step, submits, _⟩ | ⟨step, submits⟩ | ⟨_, rfl⟩
    · by_cases failing : submit.Failing eventId
      · exact .inl (step.failing (consistent.owns i) failing).2
      · refine .inr ⟨(step.records_kept (quiet i)).trans records, fun j => ?_⟩
        rw [submits]
        by_cases own : j = i
        · rw [own, Function.update_self]
          exact failing
        · rw [Function.update_of_ne own]
          exact quiet j
    · exact .inr ⟨step.records_kept.trans records, submits ▸ quiet⟩
    · exact .inr ⟨records, fun _ ⟨_, _, recording, _⟩ => by cases recording⟩

/-- In a reachable process, only a failed event has a record of its failed processing. -/
theorem unfailed_of_reachable (reached : (gateway storage settings).Reachable process)
    (eventId : String) : process.db.Failed eventId ∨ process.Unfailed eventId := by
  refine reached.invariant (fun state => state.db.Failed eventId ∨ state.Unfailed eventId) ?_
    fun state action next before held taken => (consistent_of_reachable before).unfailed taken held
  exact .inr ⟨rfl, fun _ ⟨_, _, recording, _⟩ => by cases recording⟩

/-- One submit has failed the event and writes the only record of it before its answer. -/
structure Process.Rejecting (process : Process) (i : Nat) (record : AuditRecord) (answer : Answer) :
    Prop where
  failed : process.db.Failed record.eventId
  others : ∀ j, j ≠ i → ¬ (process.submits j).Failing record.eventId
  own : (process.submits i = .recording record answer ∧
      process.db.recordsOf record.eventId .eventProcessingFailed = []) ∨
    (process.submits i = .answered answer ∧
      process.db.recordsOf record.eventId .eventProcessingFailed = [record])

variable {i : Nat} {record : AuditRecord} {answer : Answer}

/-- The step of the rejecting submit writes its record. -/
theorem Process.Rejecting.writes (rejecting : process.Rejecting i record answer)
    (kind : record.action = .eventProcessingFailed) {submit : Submit}
    (step : Submit.Step storage settings process.db i action (process.submits i) submit after.db) :
    submit = .answered answer ∧
      after.db.recordsOf record.eventId .eventProcessingFailed = [record] := by
  rcases rejecting.own with ⟨recording, none⟩ | ⟨answered, _⟩
  · rw [recording] at step
    cases step with
    | record _ _ committed =>
        have audit := (Database.commit_eq_some committed).2.2
        rw [Database.recordsOf] at none ⊢
        rw [audit, List.filter_append, none]
        exact ⟨rfl, by simp [kind]⟩
  · rw [answered] at step
    cases step

/-- Every step without a crash keeps the rejection. -/
theorem Process.Rejecting.step (rejecting : process.Rejecting i record answer)
    (consistent : process.Consistent storage) (kind : record.action = .eventProcessingFailed)
    (running : action.crashes = false)
    (taken : process.step storage settings action = some after) :
    after.Rejecting i record answer := by
  have failed := rejecting.failed.moves (consistent.step taken).2
  rcases Process.step_cases taken with ⟨j, submit, step, submits, _⟩ | ⟨step, submits⟩ | ⟨rfl, _⟩
  · by_cases own : j = i
    · subst own
      obtain ⟨answered, records⟩ := rejecting.writes kind step
      refine ⟨failed, fun k other => ?_, .inr ⟨?_, records⟩⟩
      · rw [submits, Function.update_of_ne other]
        exact rejecting.others k other
      · rw [submits, Function.update_self, answered]
    · have kept := step.records_kept (rejecting.others j own)
      refine ⟨failed, fun k other => ?_, ?_⟩
      · rw [submits]
        by_cases stepped : k = j
        · rw [stepped, Function.update_self]
          exact fun failing => (step.failing (consistent.owns j) failing).1 rejecting.failed
        · rw [Function.update_of_ne stepped]
          exact rejecting.others k other
      · rw [submits, Function.update_of_ne (Ne.symm own), kept]
        exact rejecting.own
  · refine ⟨failed, submits ▸ rejecting.others, ?_⟩
    rw [submits, step.records_kept]
    exact rejecting.own
  · cases running

/-- A rejecting submit can always go on to its answer. -/
theorem Process.Rejecting.progresses (storage : Storage) (settings : Settings)
    (rejecting : process.Rejecting i record answer) :
    process.submits i = .answered answer ∨
      ∃ after, process.step storage settings (.advance i) = some after ∧
        after.submits i = .answered answer := by
  rcases rejecting.own with ⟨recording, _⟩ | ⟨answered, _⟩
  · refine .inr ⟨process.move i (.answered answer)
      { process.db with audit := process.db.audit ++ [record] }, ?_, ?_⟩
    · simp [Process.step, Submit.advance, recording, Database.commit, EventWrite.flush,
        DeliveryWrite.flush]
    · simp [Process.move]
  · exact .inl answered

/-- A rejecting submit reports the error exactly when its answer is an HTTP exception. -/
theorem Process.Rejecting.reports {status : Nat}
    (reached : (gateway storage settings).Reachable process)
    (rejecting : process.Rejecting i record answer)
    (kind : record.action = .eventProcessingFailed) :
    ReportsError storage settings defaultDetail process i record.eventId status ↔
      ∃ detail, answer.constructed defaultDetail = .httpException status detail := by
  have held (last : Process) (leads : (uninterrupted storage settings).Leads process last) :=
    (leads.persistsWithin (fun state => state.Rejecting i record answer)
      (fun _ _ _ before rejecting running taken =>
        rejecting.step (consistent_of_reachable before) kind running taken) reached rejecting).2
  constructor
  · intro reports
    rcases rejecting.progresses storage settings with answered | ⟨after, taken, answered⟩
    · exact (reports.answered process answer .refl answered).1
    · exact (reports.answered after answer (.single ⟨.advance i,
        Machine.step_restrict.mpr ⟨rfl, taken⟩⟩) answered).1
  · intro exception
    refine ⟨fun last leads => ?_, fun last other leads answered => ?_⟩
    · rcases (held last leads).progresses storage settings with answered | ⟨after, taken, _⟩
      · exact .inl ⟨answer, answered⟩
      · exact .inr ⟨after, taken⟩
    · have rejecting := held last leads
      rcases rejecting.own with ⟨recording, _⟩ | ⟨same, records⟩
      · rw [recording] at answered
        cases answered
      · obtain rfl := Submit.answered.inj (same.symm.trans answered)
        exact ⟨exception, rejecting.failed, by rw [records, List.length_singleton]⟩

/-- A submit at its await resumes with any outcome. -/
theorem Process.exists_resume {event : Event} (outcome : CallOutcome) (now : Rat)
    (calling : process.submits i = .calling submission event) :
    ∃ after, process.step storage settings (.resume i outcome now) = some after := by
  simp only [Process.step, calling, Submit.resume]
  split
  · split
    · exact ⟨_, rfl⟩
    · exact ⟨_, rfl⟩
  · exact ⟨_, rfl⟩

/-- The end of the await stores the event as `FAILED` before it reads the body. -/
theorem resume_error {first : Process} {event : Event} {now : Rat}
    (reached : (gateway storage settings).Reachable first)
    (calling : first.submits i = .calling submission event)
    (error : 400 ≤ response.statusCode)
    (resumed : first.step storage settings (.resume i (.response response) now) = some process) :
    process.submits i = submission.rejected response ∧
      process.db.Failed submission.command.eventId ∧
      process.db.recordsOf submission.command.eventId .eventProcessingFailed = [] ∧
      ∀ j, j ≠ i → ¬ (process.submits j).Failing submission.command.eventId := by
  have consistent := consistent_of_reachable reached
  obtain ⟨rfl, pending⟩ := consistent.owns i submission event (by rw [calling]; rfl)
  have unfailed : first.Unfailed submission.command.eventId := by
    refine (unfailed_of_reachable reached _).resolve_left ?_
    rintro ⟨row, present, status⟩
    obtain rfl := Option.some.inj ((congrArg Entry.event pending).symm.trans present)
    cases status
  obtain ⟨later, step, ended⟩ := Process.call_step resumed rfl
  have records := step.records_kept (unfailed.2 i)
  obtain ⟨_, owned, _, events⟩ := step.resumed (consistent.owns i)
  rw [calling] at owned step
  obtain ⟨rfl, _⟩ := Prod.mk.inj (Option.some.inj owned)
  have failed : process.db.Failed submission.command.eventId :=
    ⟨_, (events _).trans (if_pos rfl), if_pos error⟩
  refine ⟨?_, failed, records.trans unfailed.1, fun j other => ?_⟩
  · rw [ended, step.error pending error]
  · have different : Action.call (.resume i (.response response) now) ≠ some j :=
      fun same => other (Option.some.inj same).symm
    rw [Process.submits_step resumed (fun same => by cases same) different]
    exact unfailed.2 j

/-- A submit whose downstream call ends with an error reports it exactly when the body can be
reported. -/
theorem downstream_error_reported_iff (defaultDetail : DefaultDetail) {first : Process}
    {event : Event} {now : Rat}
    (reached : (gateway storage settings).Reachable first)
    (calling : first.submits i = .calling submission event)
    (error : 400 ≤ response.statusCode)
    (resumed : first.step storage settings (.resume i (.response response) now) = some process) :
    ReportsError storage settings defaultDetail process i submission.command.eventId
        response.statusCode ↔ response.Reportable defaultDetail := by
  obtain ⟨rejected, failed, none, others⟩ := resume_error reached calling error resumed
  have reachable : (gateway storage settings).Reachable process :=
    reached.step (.resume i (.response response) now) resumed
  rw [Submission.rejected] at rejected
  cases read : response.detail with
  | none =>
      -- The body cannot be read: the submit ends before its record.
      rw [read] at rejected
      refine iff_of_false (fun reports => ?_) ?_
      · obtain ⟨⟨_, escaped⟩, _⟩ := reports.answered process _ .refl rejected
        cases escaped
      · rintro ⟨_, found, _⟩
        rw [read] at found
        cases found
  | some detail =>
      rw [read] at rejected
      have rejecting : process.Rejecting i (submission.record .eventProcessingFailed .failure
          (some (.downstreamStatus response.statusCode))) (.rejected response.statusCode detail) :=
        ⟨failed, others, .inl ⟨rejected, none⟩⟩
      refine (rejecting.reports reachable rfl).trans ?_
      rw [Answer.rejected_eq_httpException, Response.Reportable, read]
      simp only [Option.some.injEq]

end Runs

section Examples

/-- A submit of the credit awaits its downstream call. -/
def rejectable : List Action :=
  [.arrive 0 ⟨creditX.event, "trace"⟩, .advance 0, .advance 0, .advance 0]

/-- The Account Service reports a conflict of currencies. -/
def currencyMismatch : Response :=
  ⟨409, "application/json", some "", some (.obj [("error", .obj [("code", .str "CURRENCY_MISMATCH")])])⟩

/-- A proxy labels a page of text as JSON. -/
def proxyError : Response := ⟨500, "application/json", some "upstream error", none⟩

theorem Response.detail_of_json (status : Nat) (text : Option String) (json : Option Json) :
    Response.detail ⟨status, "application/json", text, json⟩ = json := by
  simp [detail]

theorem awaiting_resumed (response : Response) : ∃ first process,
    (gateway .wallClock .default).run (gateway .wallClock .default).initial rejectable = some first ∧
    first.submits 0 = .calling ⟨creditX.event, "trace"⟩
      (Submission.row .wallClock ⟨creditX.event, "trace"⟩) ∧
    first.step .wallClock .default (.resume 0 (.response response) 0) = some process := by
  obtain ⟨first, ran, calling⟩ := Option.map_eq_some_iff.mp
    (show ((gateway .wallClock .default).run (gateway .wallClock .default).initial rejectable).map
      (fun state => state.submits 0) = some (.calling ⟨creditX.event, "trace"⟩
        (Submission.row .wallClock ⟨creditX.event, "trace"⟩)) by rfl)
  obtain ⟨process, resumed⟩ := Process.exists_resume (.response response) 0 calling
  exact ⟨first, process, ran, calling, resumed⟩

/-- The installed framework has a phrase for this status and takes every status without one. -/
def conflictDetail : DefaultDetail := fun status => some (if status = 409 then "Conflict" else "")

theorem downstream_error_reported_mismatch : ∃ first process,
    (gateway .wallClock .default).run (gateway .wallClock .default).initial rejectable = some first ∧
    first.step .wallClock .default (.resume 0 (.response currencyMismatch) 0) = some process ∧
    ReportsError .wallClock .default conflictDetail process 0 "x" 409 := by
  have error : 400 ≤ currencyMismatch.statusCode := by decide
  obtain ⟨first, process, ran, calling, resumed⟩ := awaiting_resumed _
  refine ⟨first, process, ran, resumed, (downstream_error_reported_iff
    conflictDetail (Machine.reachable_of_run _ .initial ran) calling error resumed).mpr
      ⟨_, Response.detail_of_json .., fun none => ?_⟩⟩
  simp at none

theorem proxy_error_not_reported : ∃ first process,
    (gateway .wallClock .default).run (gateway .wallClock .default).initial rejectable = some first ∧
    first.submits 0 = .calling ⟨creditX.event, "trace"⟩
      (Submission.row .wallClock ⟨creditX.event, "trace"⟩) ∧
    first.step .wallClock .default (.resume 0 (.response proxyError) 0) = some process ∧
    process.submits 0 = .answered .unhandled ∧
    ∀ defaultDetail, ¬ ReportsError .wallClock .default defaultDetail process 0 "x" 500 := by
  have error : 400 ≤ proxyError.statusCode := by decide
  obtain ⟨first, process, ran, calling, resumed⟩ := awaiting_resumed _
  obtain ⟨answered, _⟩ := resume_error (Machine.reachable_of_run _ .initial ran) calling error resumed
  rw [Submission.rejected, proxyError, Response.detail_of_json] at answered
  refine ⟨first, process, ran, calling, resumed, answered, fun _ reports => ?_⟩
  obtain ⟨⟨_, escaped⟩, _⟩ := reports.answered process _ .refl answered
  cases escaped

end Examples
end EventLedger.EventGateway
