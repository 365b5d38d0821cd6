import EventLedger.EventGateway.Consistency

namespace EventLedger.EventGateway
open Library Python

variable {storage : Storage} {settings : Settings} {db next : Database} {process : Process}
  {action : Action} {eventId : String}

/-- These actions record the way of an event through the queue. -/
def AuditAction.aboutQueue : AuditAction → Bool
  | .eventQueued | .eventQueueRetryScheduled | .eventQueueRejected | .eventAppliedFromQueue => true
  | .eventStored | .eventReplayed | .eventConflictRejected | .eventProcessingFailed
  | .eventApplied => false

/-- The records of one event with one action, in the order of the audit log. -/
def Database.recordsOf (db : Database) (eventId : String) (action : AuditAction) :
    List AuditRecord :=
  db.audit.filter fun record => decide (record.eventId = eventId) && decide (record.action = action)

/-- A retry record names its attempt. -/
def AuditRecord.attempt (record : AuditRecord) : Option Nat :=
  match record.details with
  | some (.retry attempt _) => some attempt
  | _ => none

/-- The last records of an event agree with its status after `k` failed attempts. -/
def Database.Ending (db : Database) (eventId : String) (k : Nat) : ProcessingStatus → Prop
  | .pending => False
  | .queued =>
      (∃ delivery, db.deliveries.get eventId = some delivery ∧ delivery.attemptCount = k) ∧
        db.recordsOf eventId .eventAppliedFromQueue = [] ∧
        db.recordsOf eventId .eventQueueRejected = []
  | .applied =>
      (∃ record, db.recordsOf eventId .eventAppliedFromQueue = [record] ∧
          record.details = some (.attempts (k + 1))) ∧
        db.recordsOf eventId .eventQueueRejected = []
  | .failed =>
      (db.recordsOf eventId .eventQueueRejected).length = 1 ∧
        db.recordsOf eventId .eventAppliedFromQueue = []

/-- The audit trail tells that the event was queued once, retried `k` times and ended as it did. -/
structure Database.QueueAudited (db : Database) (eventId : String) (event : Event) (k : Nat) :
    Prop where
  queued : (db.recordsOf eventId .eventQueued).length = 1
  retries : (db.recordsOf eventId .eventQueueRetryScheduled).map AuditRecord.attempt =
    (List.range k).map fun n => some (n + 1)
  ending : db.Ending eventId k event.processingStatus

/-- The queue records of one event. -/
def queueRecords (records : List AuditRecord) (eventId : String) : List AuditRecord :=
  records.filter fun record => decide (record.eventId = eventId) && record.action.aboutQueue

/-- The records of an event that waits after some attempts. -/
inductive Waits : Nat → List AuditRecord → Prop where
  | queued (record : AuditRecord) (action : record.action = .eventQueued) : Waits 0 [record]
  | retried {k : Nat} {records : List AuditRecord} (record : AuditRecord) (nextAttemptAt : Rat)
      (waits : Waits k records) (action : record.action = .eventQueueRetryScheduled)
      (details : record.details = some (.retry (k + 1) nextAttemptAt)) :
      Waits (k + 1) (records ++ [record])

/-- The queue records of an event tell the life of its entry. -/
inductive Life : Entry → List AuditRecord → Prop where
  | outside (event : Option Event) : Life ⟨event, none⟩ []
  | waiting {event : Event} {delivery : PendingDelivery} {records : List AuditRecord}
      (queued : event.processingStatus = .queued) (waits : Waits delivery.attemptCount records) :
      Life ⟨some event, some delivery⟩ records
  | applied {event : Event} {k : Nat} {records : List AuditRecord} (record : AuditRecord)
      (status : event.processingStatus = .applied) (waits : Waits k records)
      (action : record.action = .eventAppliedFromQueue)
      (details : record.details = some (.attempts (k + 1))) :
      Life ⟨some event, none⟩ (records ++ [record])
  | failed {event : Event} {k : Nat} {records : List AuditRecord} (record : AuditRecord)
      (status : event.processingStatus = .failed) (waits : Waits k records)
      (action : record.action = .eventQueueRejected) :
      Life ⟨some event, none⟩ (records ++ [record])

/-- A commit moves an entry and writes its queue records together. -/
inductive Entry.Logs (storage : Storage) : Entry → Entry → List AuditRecord → Prop where
  | silent (entry : Entry) : Logs storage entry entry []
  | insert (submission : Submission) :
      Logs storage ⟨none, none⟩ ⟨some (submission.row storage), none⟩ []
  | settle (submission : Submission) (status : ProcessingStatus) :
      Logs storage ⟨some (submission.row storage), none⟩
        ⟨some ((submission.row storage).withStatus status), none⟩ []
  | queue (submission : Submission) (now : Rat) (record : AuditRecord)
      (action : record.action = .eventQueued) :
      Logs storage ⟨some (submission.row storage), none⟩
        ⟨some ((submission.row storage).withStatus .queued), some (submission.delivery now)⟩ [record]
  | reschedule (event : Event) (delivery : PendingDelivery) (lastError : String)
      (nextAttemptAt : Rat) (record : AuditRecord)
      (action : record.action = .eventQueueRetryScheduled)
      (details : record.details = some (.retry (delivery.attemptCount + 1) nextAttemptAt)) :
      Logs storage ⟨some event, some delivery⟩
        ⟨some event, some { delivery with
          attemptCount := delivery.attemptCount + 1
          lastError := some lastError
          nextAttemptAt := nextAttemptAt }⟩ [record]
  | apply (event : Event) (delivery : PendingDelivery) (record : AuditRecord)
      (action : record.action = .eventAppliedFromQueue)
      (details : record.details = some (.attempts (delivery.attemptCount + 1))) :
      Logs storage ⟨some event, some delivery⟩ ⟨some (event.withStatus .applied), none⟩ [record]
  | reject (event : Event) (delivery : PendingDelivery) (record : AuditRecord)
      (action : record.action = .eventQueueRejected) :
      Logs storage ⟨some event, some delivery⟩ ⟨some (event.withStatus .failed), none⟩ [record]

/-- No life outside the queue has a pending event with queue records. -/
theorem Life.of_row {submission : Submission} {records : List AuditRecord}
    (life : Life ⟨some (submission.row storage), none⟩ records) : records = [] := by
  cases life with
  | outside => rfl
  | applied record status | failed record status => cases status

/-- A commit that moves an entry keeps telling its life. -/
theorem Life.logs {before after : Entry} {records written : List AuditRecord}
    (life : Life before records) (logs : Entry.Logs storage before after written) :
    Life after (records ++ written) := by
  cases logs with
  | silent =>
      rw [List.append_nil]
      exact life
  | insert submission =>
      cases life
      exact .outside _
  | settle submission status =>
      rw [life.of_row]
      exact .outside _
  | queue submission now record action =>
      rw [life.of_row]
      exact .waiting rfl (.queued record action)
  | reschedule event delivery lastError nextAttemptAt record action details =>
      cases life with
      | waiting queued waits => exact .waiting queued (.retried record nextAttemptAt waits action details)
  | apply event delivery record action details =>
      cases life with
      | waiting queued waits => exact .applied record rfl waits action details
  | reject event delivery record action =>
      cases life with
      | waiting queued waits => exact .failed record rfl waits action

theorem queueRecords_append (first second : List AuditRecord) (eventId : String) :
    queueRecords (first ++ second) eventId =
      queueRecords first eventId ++ queueRecords second eventId :=
  List.filter_append _ _

/-- Every entry is moved together with its queue records. -/
def Database.Logs (storage : Storage) (db next : Database) : Prop :=
  ∀ eventId, ∃ written,
    queueRecords next.audit eventId = queueRecords db.audit eventId ++ written ∧
      Entry.Logs storage (db.entry eventId) (next.entry eventId) written

/-- A commit that moves no entry writes no queue record. -/
theorem Database.Logs.silent {records : List AuditRecord}
    (audit : next.audit = db.audit ++ records)
    (quiet : ∀ record ∈ records, record.action.aboutQueue = false)
    (same : ∀ eventId, next.entry eventId = db.entry eventId) : db.Logs storage next := by
  intro eventId
  have none : queueRecords records eventId = [] := by
    refine List.filter_eq_nil_iff.mpr fun record member => ?_
    simp [quiet record member]
  refine ⟨[], ?_, ?_⟩
  · rw [audit, queueRecords_append, none]
  · rw [same]
    exact .silent _

/-- A commit that moves one entry writes the queue records of that entry alone. -/
theorem Database.Logs.moved {records : List AuditRecord} {entry : Entry}
    (audit : next.audit = db.audit ++ records)
    (belongs : ∀ record ∈ records, record.eventId = eventId)
    (changed : ∀ other, next.entry other = if other = eventId then entry else db.entry other)
    (logs : Entry.Logs storage (db.entry eventId) entry (queueRecords records eventId)) :
    db.Logs storage next := by
  intro other
  refine ⟨queueRecords records other, by rw [audit, queueRecords_append], ?_⟩
  by_cases own : other = eventId
  · subst own
    rw [changed, if_pos rfl]
    exact logs
  · have none : queueRecords records other = [] := by
      refine List.filter_eq_nil_iff.mpr fun record member => ?_
      simp [belongs record member, Ne.symm own]
    rw [changed, if_neg own, none]
    exact .silent _

/-- The end of an await logs the move of a pending entry. -/
theorem settle_logs {submission : Submission} {outcome : CallOutcome} {now : Rat} {work : Work}
    {after : Submit}
    (pending : db.entry submission.command.eventId = ⟨some (submission.row storage), none⟩)
    (settled : submission.settle settings (submission.row storage) db now outcome =
      some (work, after))
    (committed : db.commit storage work = some next) : db.Logs storage next := by
  obtain ⟨present, absent⟩ := Entry.mk.inj pending
  have audit := (Database.commit_eq_some committed).2.2
  obtain ⟨_, ⟨_, rfl⟩ | ⟨_, rfl⟩⟩ := Submission.settle_cases absent settled
  · have changed (other : String) : next.entry other =
        if other = submission.command.eventId then
          ⟨some ((submission.row storage).withStatus (settledStatus settings outcome)), none⟩
        else db.entry other := by
      rw [Database.commit_settle present committed]
      by_cases own : other = submission.command.eventId
      · rw [if_pos own, if_pos own, own, absent]
      · rw [if_neg own, if_neg own]
    refine .moved audit (fun _ member => by cases member) changed ?_
    rw [pending]
    exact .settle submission _
  · refine .moved audit (fun _ member => ?_) (Database.commit_queue present rfl committed) ?_
    · rw [List.mem_singleton.mp member]
      rfl
    · have own : queueRecords [submission.record .eventQueued .queued
          (some (.reason "account service unavailable"))] submission.command.eventId =
            [submission.record .eventQueued .queued
              (some (.reason "account service unavailable"))] := by
        simp [queueRecords, Submission.record, AuditAction.aboutQueue]
      rw [own, pending]
      exact .queue submission now _ rfl

/-- The worker writes one record of the event whose entry it moves. -/
theorem Database.Logs.worker {event : Event} {traceId : String} {action : AuditAction}
    {outcome : AuditOutcome} {details : Option AuditDetails} {entry : Entry}
    (audit : next.audit = db.audit ++ [workerRecord event traceId action outcome details])
    (about : action.aboutQueue)
    (changed : ∀ other, next.entry other = if other = event.eventId then entry else db.entry other)
    (logs : Entry.Logs storage (db.entry event.eventId) entry
      [workerRecord event traceId action outcome details]) : db.Logs storage next := by
  refine .moved audit (fun _ member => ?_) changed ?_
  · rw [List.mem_singleton.mp member]
    rfl
  · have own : queueRecords [workerRecord event traceId action outcome details] event.eventId =
        [workerRecord event traceId action outcome details] := by
      simp [queueRecords, workerRecord, about]
    rw [own]
    exact logs

/-- The end of an attempt logs the move of a queued entry. -/
theorem deliver_logs {delivery : PendingDelivery} {event : Event} {traceId : String} {now : Rat}
    {draw : Draw} {outcome : CallOutcome} {work : Work} {done : Bool}
    (own : delivery.eventId = event.eventId)
    (current : db.entry event.eventId = ⟨some event, some delivery⟩)
    (queued : event.processingStatus = .queued)
    (delivered : deliver settings delivery event traceId now draw outcome = some (work, done))
    (committed : db.commit storage work = some next) : db.Logs storage next := by
  obtain ⟨stored, waiting⟩ := Entry.mk.inj current
  have audit := (Database.commit_eq_some committed).2.2
  cases delivered_of_deliver delivered with
  | rescheduled message =>
      rw [own] at committed
      have changed (other : String) : next.entry other =
          if other = event.eventId then
            ⟨some event, some { delivery with
              attemptCount := delivery.attemptCount + 1
              lastError := some message
              nextAttemptAt := now + backoffSeconds settings (delivery.attemptCount + 1) draw }⟩
          else db.entry other := by
        rw [Database.commit_reschedule waiting committed]
        by_cases same : other = event.eventId
        · rw [if_pos same, if_pos same, same, stored]
        · rw [if_neg same, if_neg same]
      refine .worker audit rfl changed ?_
      rw [current]
      exact .reschedule event delivery message _ _ rfl rfl
  | rejected response =>
      rw [Event.assign_of_ne (by rw [queued]; decide), own] at committed
      refine .worker audit rfl (Database.commit_dequeue stored committed) ?_
      rw [current]
      exact .reject event delivery _ rfl
  | applied response =>
      rw [Event.assign_of_ne (by rw [queued]; decide), own] at committed
      refine .worker audit rfl (Database.commit_dequeue stored committed) ?_
      rw [current]
      exact .apply event delivery _ rfl rfl

/-- The record that a submit is about to write is not about the queue. -/
def Submit.Quiet (submit : Submit) : Prop :=
  ∀ record answer, submit = .recording record answer → record.action.aboutQueue = false

theorem Submission.Finds.quiet {submission : Submission} {submit : Submit}
    (finds : submission.Finds db submit) : submit.Quiet := by
  intro record answer same
  cases finds <;> cases same <;> rfl

/-- Every step of a submit keeps it quiet. -/
theorem Submit.Step.quiet {i : Nat} {before after : Submit}
    (step : Submit.Step storage settings db i action before after next) : after.Quiet := by
  cases step with
  | lookup submission =>
      rcases submission.lookup_cases db with ⟨_, inserts⟩ | finds
      · rw [inserts]
        intro record answer same
        cases same
      · exact finds.quiet
  | relookup submission =>
      rcases submission.relookup_cases db with ⟨_, conflicts⟩ | finds
      · rw [conflicts]
        intro record answer same
        cases same
        rfl
      · exact finds.quiet
  | settle submission event outcome now settled =>
      rcases Submission.settle_ends settled with ⟨_, rfl⟩ | ⟨_, _, rfl, action⟩
      · intro record answer same
        cases same
      · intro record answer same
        cases same
        rcases action with action | action <;> rw [action] <;> rfl
  | arrive | insert | rollback | call | stale | raise | record =>
      intro record answer same
      cases same

/-- A submit moves its entry and writes the queue records of the move. -/
theorem Submit.Step.logs {i : Nat} {before after : Submit}
    (step : Submit.Step storage settings db i action before after next)
    (valid : ∀ eventId, (db.entry eventId).Valid) (quiet : before.Quiet)
    (owns : before.Owns storage db) :
    db.Logs storage next := by
  have unchanged : db.Logs storage db :=
    .silent (List.append_nil _).symm (fun _ member => by cases member) fun _ => rfl
  cases step with
  | arrive | lookup | rollback | relookup | raise | stale => exact unchanged
  | insert submission committed =>
      have audit := (Database.commit_eq_some committed).2.2
      obtain ⟨fresh, changed⟩ := Database.commit_insert committed
      have empty := (valid submission.command.eventId).absent fresh
      have absent : db.deliveries.get submission.command.eventId = none :=
        congrArg Entry.delivery empty
      have moved (other : String) : next.entry other =
          if other = submission.command.eventId then ⟨some (submission.row storage), none⟩
          else db.entry other := by
        rw [changed]
        by_cases own : other = submission.command.eventId
        · rw [if_pos own.symm, if_pos own, own, absent]
        · rw [if_neg (Ne.symm own), if_neg own]
      refine .moved audit (fun _ member => by cases member) moved ?_
      rw [empty]
      exact .insert submission
  | call submission event committed =>
      refine .silent (Database.commit_eq_some committed).2.2 (fun _ member => ?_)
        (Database.commit_records committed)
      rw [List.mem_singleton.mp member]
      rfl
  | settle submission event outcome now settled committed =>
      obtain ⟨rfl, pending⟩ := owns submission event rfl
      exact settle_logs pending settled committed
  | record record answer committed =>
      refine .silent (Database.commit_eq_some committed).2.2 (fun _ member => ?_)
        (Database.commit_records committed)
      rw [List.mem_singleton.mp member]
      exact quiet record answer rfl

/-- The worker moves the entry that it holds and writes the queue record of the move. -/
theorem Worker.Step.logs {before after : Worker}
    (step : Worker.Step storage settings db action before after next)
    (valid : ∀ eventId, (db.entry eventId).Valid)
    (current : before.Current db) :
    db.Logs storage next := by
  have unchanged : db.Logs storage db :=
    .silent (List.append_nil _).symm (fun _ member => by cases member) fun _ => rfl
  cases step with
  | poll | absent | call | stale | raise | rest => exact unchanged
  | orphan fresh eventId remaining processed delivery present missing committed =>
      have empty := congrArg Entry.delivery ((valid eventId).absent missing)
      exact absurd (present.symm.trans empty) (by simp)
  | deliver delivery event traceId remaining processed outcome now draw delivered committed =>
      obtain ⟨own, entry⟩ := current delivery event rfl
      have queued := Entry.Valid.queued (entry ▸ valid event.eventId)
      exact deliver_logs own entry queued delivered committed

/-- The process is consistent, no submit is about to write a queue record, and the queue records
of each event tell the life of its entry. -/
structure Process.Audited (storage : Storage) (process : Process) : Prop where
  consistent : process.Consistent storage
  quiet : ∀ i, (process.submits i).Quiet
  lives : ∀ eventId, Life (process.db.entry eventId) (queueRecords process.db.audit eventId)

theorem Process.Audited.logs {after : Process} (audited : process.Audited storage)
    (taken : process.step storage settings action = some after) :
    process.db.Logs storage after.db := by
  rcases Process.step_cases taken with
    ⟨i, submit, step, _, _⟩ | ⟨step, _⟩ | ⟨_, rfl⟩
  · exact step.logs audited.consistent.valid (audited.quiet i) (audited.consistent.owns i)
  · exact step.logs audited.consistent.valid audited.consistent.current
  · exact .silent (List.append_nil _).symm (fun _ member => by cases member) fun _ => rfl

/-- Every step keeps the process audited. -/
theorem Process.Audited.step {after : Process} (audited : process.Audited storage)
    (taken : process.step storage settings action = some after) : after.Audited storage := by
  have logs := audited.logs taken
  refine ⟨(audited.consistent.step taken).1, fun j => ?_, fun eventId => ?_⟩
  · rcases Process.step_cases taken with
      ⟨i, submit, step, submits, _⟩ | ⟨_, submits⟩ | ⟨_, rfl⟩
    · rw [submits]
      by_cases own : j = i
      · subst own
        rw [Function.update_self]
        exact step.quiet
      · rw [Function.update_of_ne own]
        exact audited.quiet j
    · rw [submits]
      exact audited.quiet j
    · intro record answer same
      cases same
  · obtain ⟨written, records, move⟩ := logs eventId
    rw [records]
    exact (audited.lives eventId).logs move

theorem audited_of_reachable (reached : (gateway storage settings).Reachable process) :
    process.Audited storage := by
  refine reached.invariant _ ⟨Process.consistent_initial storage settings, ?_, ?_⟩
    fun _ _ _ _ audited taken => audited.step taken
  · intro i record answer same
    cases same
  · exact fun eventId => .outside none

/-- The records of a waiting event are one queued record and its attempts in order. -/
structure Waiting (k : Nat) (records : List AuditRecord) : Prop where
  queued : (records.filter fun record => decide (record.action = .eventQueued)).length = 1
  retries : (records.filter fun record =>
      decide (record.action = .eventQueueRetryScheduled)).map AuditRecord.attempt =
    (List.range k).map fun n => some (n + 1)
  unapplied : (records.filter fun record => decide (record.action = .eventAppliedFromQueue)) = []
  unrejected : (records.filter fun record => decide (record.action = .eventQueueRejected)) = []

theorem Waits.waiting {k : Nat} {records : List AuditRecord} (waits : Waits k records) :
    Waiting k records := by
  induction waits with
  | queued record action => constructor <;> simp [action]
  | retried record nextAttemptAt _ action details ih =>
      constructor
      · rw [List.filter_append, List.length_append, ih.queued]
        simp [action]
      · rw [List.filter_append, List.map_append, ih.retries, List.range_succ, List.map_append]
        simp [action, AuditRecord.attempt, details]
      · rw [List.filter_append, ih.unapplied]
        simp [action]
      · rw [List.filter_append, ih.unrejected]
        simp [action]

/-- The records with an action about the queue are found among the queue records. -/
theorem Database.recordsOf_eq (db : Database) (eventId : String) {action : AuditAction}
    (about : action.aboutQueue) : db.recordsOf eventId action =
      (queueRecords db.audit eventId).filter fun record => decide (record.action = action) := by
  rw [recordsOf, queueRecords, List.filter_filter]
  congr 1
  funext record
  by_cases same : record.action = action
  · simp [same, about]
  · simp [same]

/-- The audit trail of an event that waits after some attempts. -/
theorem Waiting.audited {records : List AuditRecord} {event : Event} {delivery : PendingDelivery}
    (waiting : Waiting delivery.attemptCount records)
    (trail : queueRecords db.audit eventId = records)
    (present : db.deliveries.get eventId = some delivery)
    (status : event.processingStatus = .queued) :
    db.QueueAudited eventId event delivery.attemptCount := by
  constructor
  · rw [db.recordsOf_eq eventId rfl, trail, waiting.queued]
  · rw [db.recordsOf_eq eventId rfl, trail, waiting.retries]
  · rw [status]
    refine ⟨⟨delivery, present, rfl⟩, ?_, ?_⟩
    · rw [db.recordsOf_eq eventId rfl, trail, waiting.unapplied]
    · rw [db.recordsOf_eq eventId rfl, trail, waiting.unrejected]

/-- The audit trail of an event whose last record ended its wait. -/
theorem Waiting.ended {k : Nat} {records : List AuditRecord} {record : AuditRecord} {event : Event}
    (waiting : Waiting k records) (trail : queueRecords db.audit eventId = records ++ [record])
    (ending : (event.processingStatus = .applied ∧ record.action = .eventAppliedFromQueue ∧
        record.details = some (.attempts (k + 1))) ∨
      (event.processingStatus = .failed ∧ record.action = .eventQueueRejected)) :
    db.QueueAudited eventId event k := by
  have action : record.action = .eventAppliedFromQueue ∨ record.action = .eventQueueRejected :=
    ending.imp (fun applied => applied.2.1) fun failed => failed.2
  constructor
  · rw [db.recordsOf_eq eventId rfl, trail, List.filter_append, List.length_append, waiting.queued]
    rcases action with action | action <;> simp [action]
  · rw [db.recordsOf_eq eventId rfl, trail, List.filter_append, List.map_append, waiting.retries]
    rcases action with action | action <;> simp [action]
  · have applied := db.recordsOf_eq eventId (show AuditAction.eventAppliedFromQueue.aboutQueue from rfl)
    have rejected := db.recordsOf_eq eventId (show AuditAction.eventQueueRejected.aboutQueue from rfl)
    rw [trail, List.filter_append, waiting.unapplied] at applied
    rw [trail, List.filter_append, waiting.unrejected] at rejected
    rcases ending with ⟨status, action, details⟩ | ⟨status, action⟩
    · rw [status]
      refine ⟨⟨record, ?_, details⟩, ?_⟩
      · simp [applied, action]
      · simp [rejected, action]
    · rw [status]
      refine ⟨?_, ?_⟩
      · simp [rejected, action]
      · simp [applied, action]

/-- An event with queue records is audited. -/
theorem Life.audited (life : Life (db.entry eventId) (queueRecords db.audit eventId))
    (entered : queueRecords db.audit eventId ≠ []) :
    ∃ event k, db.events.get eventId = some event ∧ db.QueueAudited eventId event k := by
  generalize told : db.entry eventId = entry at life
  generalize trail : queueRecords db.audit eventId = records at life entered
  cases life with
  | outside => exact absurd rfl entered
  | waiting status waits =>
      exact ⟨_, _, congrArg Entry.event told,
        waits.waiting.audited trail (congrArg Entry.delivery told) status⟩
  | applied record status waits action details =>
      exact ⟨_, _, congrArg Entry.event told,
        waits.waiting.ended trail (.inl ⟨status, action, details⟩)⟩
  | failed record status waits action =>
      exact ⟨_, _, congrArg Entry.event told,
        waits.waiting.ended trail (.inr ⟨status, action⟩)⟩

/-- An event that entered the queue has queue records ever after. -/
theorem entered_records {entered : Process} {delivery : PendingDelivery}
    (reached : (gateway storage settings).Reachable entered)
    (leads : (gateway storage settings).Leads entered process)
    (enqueued : entered.db.deliveries.get eventId = some delivery) :
    queueRecords process.db.audit eventId ≠ [] := by
  refine leads.persists (fun state => queueRecords state.db.audit eventId ≠ [])
    (fun state action after before held taken => ?_) reached ?_
  · obtain ⟨written, records, _⟩ := (audited_of_reachable before).logs taken eventId
    rw [records]
    exact List.append_ne_nil_of_left_ne_nil held _
  · have life := (audited_of_reachable reached).lives eventId
    generalize told : entered.db.entry eventId = entry at life
    generalize queueRecords entered.db.audit eventId = records at life
    have present : entry.delivery = some delivery := by
      rw [← told]
      exact enqueued
    cases life with
    | outside | applied | failed => cases present
    | waiting status waits =>
        intro empty
        have one := waits.waiting.queued
        rw [empty] at one
        cases one

/-- The audit trail of every event that ever entered the queue matches its life. -/
theorem queue_audited {entered : Process} {delivery : PendingDelivery}
    (reached : (gateway storage settings).Reachable entered)
    (leads : (gateway storage settings).Leads entered process)
    (enqueued : entered.db.deliveries.get eventId = some delivery) :
    ∃ event k, process.db.events.get eventId = some event ∧
      process.db.QueueAudited eventId event k :=
  ((audited_of_reachable (leads.reachable reached)).lives eventId).audited
    (entered_records reached leads enqueued)

/-- An event is queued, is retried once, survives a crash and is applied by the next pass. -/
def enqueuing : List Action :=
  [.arrive 0 ⟨creditX.event, "trace"⟩, .advance 0, .advance 0, .advance 0,
    .resume 0 (.unavailable "timeout") 0]

def retriedThenApplied : List Action :=
  [.poll 0, .take "fresh", .deliver (.unavailable "timeout") 0 .zero, .crash,
    .poll 60, .take "fresh", .deliver (.response ⟨201, "application/json", some "", none⟩) 60 .zero]

theorem queue_audited_applied : ∃ entered process,
    (gateway .wallClock .default).run (gateway .wallClock .default).initial enqueuing = some entered ∧
    (gateway .wallClock .default).run entered retriedThenApplied = some process ∧
    ∃ event k, process.db.events.get "x" = some event ∧ process.db.QueueAudited "x" event k := by
  obtain ⟨process, ran⟩ := Option.isSome_iff_exists.mp
    (show ((gateway .wallClock .default).run (gateway .wallClock .default).initial
      (enqueuing ++ retriedThenApplied)).isSome by decide +kernel)
  rw [Machine.run_append] at ran
  obtain ⟨entered, queued, continued⟩ := Option.bind_eq_some_iff.mp ran
  have waits : (((gateway .wallClock .default).run (gateway .wallClock .default).initial enqueuing).bind
      fun state => state.db.deliveries.get "x").isSome := by decide
  rw [queued] at waits
  obtain ⟨delivery, enqueued⟩ := Option.isSome_iff_exists.mp waits
  exact ⟨entered, process, queued, continued,
    queue_audited (Machine.reachable_of_run _ .initial queued) (Machine.leads_of_run _ continued)
      enqueued⟩

end EventLedger.EventGateway
