import EventLedger.EventGateway.Consistency

namespace EventLedger.EventGateway
open Library Python

variable {storage : Storage} {settings : Settings} {db next : Database} {process : Process}
  {action : Action}

/-- These actions tell the life of an event. -/
def AuditAction.tellsLife : AuditAction → Bool
  | .eventReplayed | .eventConflictRejected => false
  | .eventStored | .eventProcessingFailed | .eventQueued | .eventApplied
  | .eventQueueRetryScheduled | .eventQueueRejected | .eventAppliedFromQueue => true

/-- The actions that some records tell of one event. -/
def trailOf (records : List AuditRecord) (eventId : String) : List AuditAction :=
  (records.filter fun record => decide (record.eventId = eventId) && record.action.tellsLife).map
    AuditRecord.action

/-- A tale is the status of one event with the actions that the audit log tells of it. -/
structure Tale where
  status : Option ProcessingStatus
  trail : List AuditAction

def Database.tale (db : Database) (eventId : String) : Tale :=
  ⟨(db.events.get eventId).map Event.processingStatus, trailOf db.audit eventId⟩

/-- The trail of a queued event grows by one action for each failed attempt. -/
def queuedTrail (attempts : Nat) : List AuditAction :=
  [.eventStored, .eventQueued] ++ List.replicate attempts .eventQueueRetryScheduled

/-- A tale is true when its trail is a path to its status. A crash or an answer that cannot be
read may lose the record of the insert or of a settled status, and no other record is lost. -/
inductive Tale.IsTrue : Tale → Prop where
  | absent : IsTrue ⟨none, []⟩
  | unrecorded : IsTrue ⟨some .pending, []⟩
  | stored : IsTrue ⟨some .pending, [.eventStored]⟩
  | settled (status : ProcessingStatus) (final : status.final) :
      IsTrue ⟨some status, [.eventStored]⟩
  | applied : IsTrue ⟨some .applied, [.eventStored, .eventApplied]⟩
  | failed : IsTrue ⟨some .failed, [.eventStored, .eventProcessingFailed]⟩
  | queued (attempts : Nat) : IsTrue ⟨some .queued, queuedTrail attempts⟩
  | appliedFromQueue (attempts : Nat) :
      IsTrue ⟨some .applied, queuedTrail attempts ++ [.eventAppliedFromQueue]⟩
  | queueRejected (attempts : Nat) :
      IsTrue ⟨some .failed, queuedTrail attempts ++ [.eventQueueRejected]⟩

/-- A submit passes these stages while it alone writes the tale of its event. -/
inductive Stage where
  | stored
  | calling
  | applied
  | failed

/-- The tale that a submit finds at each of its stages. -/
def Stage.tale : Stage → Tale
  | .stored => ⟨some .pending, []⟩
  | .calling => ⟨some .pending, [.eventStored]⟩
  | .applied => ⟨some .applied, [.eventStored]⟩
  | .failed => ⟨some .failed, [.eventStored]⟩

/-- A record that is still to be written is the last stage of its submit. -/
def AuditAction.stage : AuditAction → Option Stage
  | .eventApplied => some .applied
  | .eventProcessingFailed => some .failed
  | _ => none

/-- A submit writes the tale of at most one event. -/
def Submit.stage : Submit → Option (String × Stage)
  | .stored submission _ => some (submission.command.eventId, .stored)
  | .calling submission _ => some (submission.command.eventId, .calling)
  | .recording record _ => record.action.stage.map fun stage => (record.eventId, stage)
  | .idle | .received _ | .inserting _ | .conflicted _ | .answered _ => none

theorem trailOf_append (first second : List AuditRecord) (eventId : String) :
    trailOf (first ++ second) eventId = trailOf first eventId ++ trailOf second eventId := by
  rw [trailOf, List.filter_append, List.map_append]
  rfl

@[simp] theorem trailOf_nil (eventId : String) : trailOf [] eventId = [] := rfl

/-- One record tells its action of its own event only. -/
theorem trailOf_singleton (record : AuditRecord) (eventId : String) : trailOf [record] eventId =
    if record.eventId = eventId ∧ record.action.tellsLife then [record.action] else [] := by
  by_cases own : record.eventId = eventId <;>
    by_cases tells : record.action.tellsLife <;> simp [trailOf, own, tells]

/-- The status that an events statement leaves behind. -/
def EventWrite.status (events : Table Event.eventId) (eventId : String) :
    Option EventWrite → Option ProcessingStatus
  | some (.insert event) =>
      if event.eventId = eventId then some event.processingStatus
      else (events.get eventId).map Event.processingStatus
  | some (.assign key status) =>
      if eventId = key then some status else (events.get eventId).map Event.processingStatus
  | none => (events.get eventId).map Event.processingStatus

/-- One commit rewrites each tale by its events statement and by its records. -/
theorem Database.commit_tale {work : Work} (committed : db.commit storage work = some next)
    (eventId : String) : next.tale eventId =
      ⟨EventWrite.status db.events eventId work.event,
        (db.tale eventId).trail ++ trailOf work.records eventId⟩ := by
  obtain ⟨flushed, _, audit⟩ := Database.commit_eq_some committed
  rw [tale, audit, trailOf_append, tale, Tale.mk.injEq]
  refine ⟨?_, rfl⟩
  cases write : work.event with
  | none =>
      rw [write] at flushed
      rw [← Option.some.inj flushed]
      rfl
  | some write' =>
      rw [write] at flushed
      cases write' with
      | insert event =>
          have inserted : db.events.insert (event.stored storage) = some next.events := flushed
          rw [Table.get_insert inserted, EventWrite.status]
          exact apply_ite (Option.map Event.processingStatus) _ _ _
      | assign key status =>
          obtain ⟨⟨row, present⟩, _⟩ := Table.update_eq_some.mp flushed
          rw [EventWrite.get_assign flushed, present, EventWrite.status]
          exact apply_ite (Option.map Event.processingStatus) _ _ _

/-- Records alone keep every status. -/
theorem Database.commit_tale_records {records : List AuditRecord}
    (committed : db.commit storage ⟨none, none, records⟩ = some next) (eventId : String) :
    next.tale eventId =
      ⟨(db.tale eventId).status, (db.tale eventId).trail ++ trailOf records eventId⟩ :=
  Database.commit_tale committed eventId

/-- The author of a tale moves it with its own stage. -/
inductive Stage.Move : Option Stage → Tale → Option Stage → Tale → Prop where
  | insert (trail : List AuditAction) :
      Move none ⟨none, trail⟩ (some .stored) ⟨some .pending, trail⟩
  | store : Move (some .stored) Stage.stored.tale (some .calling) Stage.calling.tale
  | settle (stage : Stage) (later : Option Stage) (settles : stage = .applied ∨ stage = .failed)
      (goes : later = some stage ∨ later = none) :
      Move (some .calling) Stage.calling.tale later stage.tale
  | queue : Move (some .calling) Stage.calling.tale none ⟨some .queued, queuedTrail 0⟩
  | apply : Move (some .applied) Stage.applied.tale none
      ⟨some .applied, [.eventStored, .eventApplied]⟩
  | fail : Move (some .failed) Stage.failed.tale none
      ⟨some .failed, [.eventStored, .eventProcessingFailed]⟩

/-- A step of a submit moves the tale that it writes, or moves no tale. -/
inductive Submit.Tells (db next : Database) (before after : Submit) : Prop where
  | silent (kept : after.stage = none) (same : ∀ eventId, next.tale eventId = db.tale eventId)
  | writes (eventId : String) (earlier later : Option Stage)
      (wrote : before.stage = earlier.map fun stage => (eventId, stage))
      (writes : after.stage = later.map fun stage => (eventId, stage))
      (move : Stage.Move earlier (db.tale eventId) later (next.tale eventId))
      (others : ∀ other, other ≠ eventId → next.tale other = db.tale other)

/-- A lookup that finds a stored event writes no tale. -/
theorem Submission.Finds.stage {submission : Submission} {submit : Submit}
    (finds : submission.Finds db submit) : submit.stage = none := by
  cases finds <;> rfl

theorem Submission.lookup_stage (submission : Submission) (db : Database) :
    (submission.lookup db).stage = none := by
  obtain ⟨_, inserts⟩ | finds := submission.lookup_cases db
  · rw [inserts]
    rfl
  · exact finds.stage

theorem Submission.relookup_stage (submission : Submission) (db : Database) :
    (submission.relookup db).stage = none := by
  obtain ⟨_, conflicts⟩ | finds := submission.relookup_cases db
  · rw [conflicts]
    rfl
  · exact finds.stage

/-- A rejection is recorded next, or its body cannot be parsed and the record is lost. -/
theorem Submission.rejected_stage (submission : Submission) (response : Response) :
    (submission.rejected response).stage = some (submission.command.eventId, .failed) ∨
      (submission.rejected response).stage = none := by
  unfold rejected
  split
  · exact .inr rfl
  · exact .inl rfl

/-- The end of an await settles the pending event, and its record follows at once or as the last
stage of the submit. -/
theorem settle_tells {submission : Submission} {outcome : CallOutcome} {now : Rat} {work : Work}
    {after : Submit}
    (told : db.tale submission.command.eventId = Stage.calling.tale)
    (settled : submission.settle settings (submission.row storage) db now outcome =
      some (work, after))
    (committed : db.commit storage work = some next) :
    Submit.Tells db next (.calling submission (submission.row storage)) after := by
  have tale := Database.commit_tale committed
  cases Submission.settles settled with
  | rejected response =>
      rw [submission.row_assign (by decide)] at tale
      have own := tale submission.command.eventId
      rw [told, EventWrite.status, if_pos rfl, trailOf_nil, List.append_nil] at own
      have move (later : Option Stage) (goes : later = some .failed ∨ later = none) :
          Stage.Move (some .calling) (db.tale submission.command.eventId) later
            (next.tale submission.command.eventId) := by
        rw [told, own]
        exact .settle .failed later (.inr rfl) goes
      have others (other : String) (different : other ≠ submission.command.eventId) :
          next.tale other = db.tale other := by
        rw [tale, EventWrite.status, if_neg different, trailOf_nil, List.append_nil]
        rfl
      obtain recorded | lost := submission.rejected_stage response
      · exact .writes _ (some .calling) (some .failed) rfl recorded (move _ (.inl rfl)) others
      · exact .writes _ (some .calling) none rfl lost (move _ (.inr rfl)) others
  | applied response =>
      rw [submission.row_assign (by decide)] at tale
      have own := tale submission.command.eventId
      rw [told, EventWrite.status, if_pos rfl, trailOf_nil, List.append_nil] at own
      apply Submit.Tells.writes submission.command.eventId (some .calling) (some .applied) rfl rfl
      · rw [told, own]
        exact .settle .applied _ (.inl rfl) (.inl rfl)
      · intro other different
        rw [tale, EventWrite.status, if_neg different, trailOf_nil, List.append_nil]
        rfl
  | queued message =>
      rw [submission.row_assign (by decide)] at tale
      have own := tale submission.command.eventId
      rw [told, EventWrite.status, if_pos rfl, trailOf_singleton] at own
      apply Submit.Tells.writes submission.command.eventId (some .calling) none rfl rfl
      · rw [told, own, if_pos ⟨rfl, rfl⟩]
        exact .queue
      · intro other different
        rw [tale, EventWrite.status, if_neg different, trailOf_singleton,
          if_neg fun same => different same.1.symm, List.append_nil]
        rfl
  | failed message =>
      rw [submission.row_assign (by decide)] at tale
      have own := tale submission.command.eventId
      rw [told, EventWrite.status, if_pos rfl, trailOf_nil, List.append_nil] at own
      apply Submit.Tells.writes submission.command.eventId (some .calling) (some .failed) rfl rfl
      · rw [told, own]
        exact .settle .failed _ (.inr rfl) (.inl rfl)
      · intro other different
        rw [tale, EventWrite.status, if_neg different, trailOf_nil, List.append_nil]
        rfl

/-- The last record of a submit ends the tale of its event, or tells no life. -/
theorem record_tells {record : AuditRecord} {answer : Answer}
    (told : ∀ eventId stage, (Submit.recording record answer).stage = some (eventId, stage) →
      db.tale eventId = stage.tale)
    (quiet : record.action.stage = none → record.action.tellsLife = false)
    (committed : db.commit storage ⟨none, none, [record]⟩ = some next) :
    Submit.Tells db next (.recording record answer) (.answered answer) := by
  have tale := Database.commit_tale_records committed
  have others (other : String) (different : other ≠ record.eventId) :
      next.tale other = db.tale other := by
    rw [tale, trailOf_singleton, if_neg fun same => different same.1.symm, List.append_nil]
  cases stage : record.action.stage with
  | none =>
      apply Submit.Tells.silent rfl
      intro other
      rw [tale, trailOf_singleton, quiet stage, if_neg (by simp), List.append_nil]
  | some last =>
      have writer : (Submit.recording record answer).stage = some (record.eventId, last) := by
        rw [Submit.stage, stage]
        rfl
      have own := tale record.eventId
      rw [told _ _ writer] at own
      apply Submit.Tells.writes record.eventId (some last) none writer rfl _ others
      rw [told _ _ writer, own, trailOf_singleton]
      generalize record.action = action at stage
      cases action <;> cases stage
      · rw [if_pos ⟨rfl, rfl⟩]
        exact .fail
      · rw [if_pos ⟨rfl, rfl⟩]
        exact .apply

/-- A submit about to record either ends a tale or reports a replay or a conflict. -/
def Submit.RecordsLast (submit : Submit) : Prop :=
  ∀ record answer, submit = .recording record answer →
    record.action.stage = none → record.action.tellsLife = false

/-- Every step of a submit leaves it so. -/
theorem Submit.Step.recordsLast {i : Nat} {before after : Submit}
    (step : Submit.Step storage settings db i action before after next) : after.RecordsLast := by
  intro record answer same untold
  have found {submission : Submission} (finds : submission.Finds db (.recording record answer)) :
      record.action.tellsLife = false := by
    cases finds <;> rfl
  cases step with
  | lookup submission =>
      obtain ⟨_, inserts⟩ | finds := submission.lookup_cases db
      · rw [inserts] at same
        cases same
      · exact found (same ▸ finds)
  | relookup submission =>
      obtain ⟨_, conflicts⟩ | finds := submission.relookup_cases db
      · rw [conflicts] at same
        cases same
        rfl
      · exact found (same ▸ finds)
  | settle submission event outcome now settled =>
      obtain ⟨_, rfl⟩ | ⟨_, _, rfl, told⟩ := Submission.settle_ends settled
      · cases same
      · cases same
        obtain told | told := told <;> rw [told] at untold <;> cases untold
  | arrive | insert | rollback | call | stale | raise | record => cases same

/-- Every step of a submit moves the tale that it writes, or moves no tale. -/
theorem Submit.Step.tells {i : Nat} {before after : Submit}
    (step : Submit.Step storage settings db i action before after next)
    (owns : before.Owns storage db) (recordsLast : before.RecordsLast)
    (told : ∀ eventId stage, before.stage = some (eventId, stage) → db.tale eventId = stage.tale) :
    Submit.Tells db next before after := by
  cases step with
  | arrive | rollback | stale | raise => exact .silent rfl fun _ => rfl
  | lookup submission => exact .silent (submission.lookup_stage db) fun _ => rfl
  | relookup submission => exact .silent (submission.relookup_stage db) fun _ => rfl
  | insert submission committed =>
      have tale := Database.commit_tale committed
      have fresh := (Database.commit_insert committed).1
      have key : submission.event.eventId = submission.command.eventId := rfl
      apply Submit.Tells.writes submission.command.eventId none (some .stored) rfl rfl
      · have empty : db.tale submission.command.eventId =
            ⟨none, (db.tale submission.command.eventId).trail⟩ := by
          rw [Database.tale, fresh]
          rfl
        rw [tale, EventWrite.status, key, if_pos rfl, trailOf_nil, List.append_nil, empty]
        exact .insert _
      · intro other different
        rw [tale, EventWrite.status, key, if_neg (Ne.symm different), trailOf_nil, List.append_nil]
        rfl
  | call submission event committed =>
      have tale := Database.commit_tale_records committed
      have own := told submission.command.eventId .stored rfl
      apply Submit.Tells.writes submission.command.eventId (some .stored) (some .calling) rfl rfl
      · rw [tale, own, trailOf_singleton, if_pos ⟨rfl, rfl⟩]
        exact .store
      · intro other different
        rw [tale, trailOf_singleton, if_neg fun same => different same.1.symm, List.append_nil]
  | settle submission event outcome now settled committed =>
      obtain ⟨rfl, _⟩ := owns submission event rfl
      exact settle_tells (told _ .calling rfl) settled committed
  | record record answer committed =>
      exact record_tells told (recordsLast record answer rfl) committed

/-- A tale without a status has no trail. -/
theorem Tale.IsTrue.untold {trail : List AuditAction} (isTrue : (Tale.mk none trail).IsTrue) :
    trail = [] := by
  cases isTrue
  rfl

/-- A queued event has been queued once and retried after each failed attempt. -/
theorem Tale.IsTrue.attempts {trail : List AuditAction}
    (isTrue : (Tale.mk (some .queued) trail).IsTrue) : ∃ attempts, trail = queuedTrail attempts := by
  cases isTrue with
  | settled _ final => cases final
  | queued attempts => exact ⟨attempts, rfl⟩

/-- The author keeps the tale true, and finds the tale of its next stage. -/
theorem Stage.Move.isTrue {earlier later : Option Stage} {before after : Tale}
    (move : Stage.Move earlier before later after) (isTrue : before.IsTrue) :
    after.IsTrue ∧ ∀ stage, later = some stage → after = stage.tale := by
  cases move with
  | insert trail =>
      obtain rfl := isTrue.untold
      exact ⟨.unrecorded, fun _ same => by cases same; rfl⟩
  | store => exact ⟨.stored, fun _ same => by cases same; rfl⟩
  | settle stage later settles goes =>
      refine ⟨?_, fun next same => ?_⟩
      · obtain rfl | rfl := settles
        · exact .settled .applied rfl
        · exact .settled .failed rfl
      · obtain rfl | rfl := goes
        · cases same
          rfl
        · cases same
  | queue => exact ⟨.queued 0, fun _ same => by cases same⟩
  | apply => exact ⟨.applied, fun _ same => by cases same⟩
  | fail => exact ⟨.failed, fun _ same => by cases same⟩

/-- A tale that has an author or a stored event has a status. -/
theorem Stage.Move.status {later : Option Stage} {before after : Tale}
    (move : Stage.Move none before later after) : before.status = none := by
  cases move
  rfl

theorem Stage.tale_status (stage : Stage) :
    stage.tale.status ≠ none ∧ stage.tale.status ≠ some .queued := by
  cases stage <;> simp [tale]

/-- The end of an attempt tells of the queued event alone. -/
theorem deliver_tells {delivery : PendingDelivery} {event : Event} {traceId : String} {now : Rat}
    {draw : Draw} {outcome : CallOutcome} {work : Work} {done : Bool}
    (present : db.events.get event.eventId = some event)
    (queued : event.processingStatus = .queued) (isTrue : (db.tale event.eventId).IsTrue)
    (delivered : deliver settings delivery event traceId now draw outcome = some (work, done))
    (committed : db.commit storage work = some next) :
    (next.tale event.eventId).IsTrue ∧
      ∀ other, other ≠ event.eventId → next.tale other = db.tale other := by
  have tale := Database.commit_tale committed
  have status : (db.tale event.eventId).status = some .queued := by
    rw [Database.tale, present, ← queued]
    rfl
  obtain ⟨attempts, trail⟩ : ∃ attempts, (db.tale event.eventId).trail = queuedTrail attempts :=
    Tale.IsTrue.attempts (by rw [← status]; exact isTrue)
  have silent (action : AuditAction) (outcome : AuditOutcome) (details : Option AuditDetails)
      {other : String} (different : other ≠ event.eventId) :
      trailOf [workerRecord event traceId action outcome details] other = [] := by
    rw [trailOf_singleton, if_neg fun same => different same.1.symm]
  have tells (action : AuditAction) (outcome : AuditOutcome) (details : Option AuditDetails)
      (life : action.tellsLife) :
      trailOf [workerRecord event traceId action outcome details] event.eventId = [action] := by
    rw [trailOf_singleton, if_pos ⟨rfl, life⟩]
    rfl
  cases delivered_of_deliver delivered with
  | rescheduled message =>
      refine ⟨?_, fun other different => ?_⟩
      · have more : queuedTrail attempts ++ [.eventQueueRetryScheduled] =
            queuedTrail (attempts + 1) := by
          rw [queuedTrail, List.append_assoc, ← List.replicate_succ']
          rfl
        have kept : EventWrite.status db.events event.eventId none = some .queued := status
        rw [tale, tells _ _ _ rfl, trail, more, kept]
        exact .queued (attempts + 1)
      · rw [tale, silent _ _ _ different, List.append_nil]
        rfl
  | rejected response =>
      rw [Event.assign_of_ne (by rw [queued]; decide)] at tale
      refine ⟨?_, fun other different => ?_⟩
      · rw [tale, tells _ _ _ rfl, trail, EventWrite.status, if_pos rfl]
        exact .queueRejected attempts
      · rw [tale, silent _ _ _ different, EventWrite.status, if_neg different, List.append_nil]
        rfl
  | applied response =>
      rw [Event.assign_of_ne (by rw [queued]; decide)] at tale
      refine ⟨?_, fun other different => ?_⟩
      · rw [tale, tells _ _ _ rfl, trail, EventWrite.status, if_pos rfl]
        exact .appliedFromQueue attempts
      · rw [tale, silent _ _ _ different, EventWrite.status, if_neg different, List.append_nil]
        rfl

/-- Every tale is true, and each one that is still written has a single author, who finds it at
the author's stage. -/
structure Process.Truthful (storage : Storage) (process : Process) : Prop where
  consistent : process.Consistent storage
  isTrue : ∀ eventId, (process.db.tale eventId).IsTrue
  told : ∀ i eventId stage, (process.submits i).stage = some (eventId, stage) →
    process.db.tale eventId = stage.tale
  single : ∀ i j eventId first second, (process.submits i).stage = some (eventId, first) →
    (process.submits j).stage = some (eventId, second) → i = j
  recordsLast : ∀ i, (process.submits i).RecordsLast

/-- A process whose tales stay with their authors stays truthful. -/
theorem Process.Truthful.frame {after : Process} (truthful : process.Truthful storage)
    (consistent : after.Consistent storage) (isTrue : ∀ eventId, (after.db.tale eventId).IsTrue)
    (kept : ∀ j eventId stage, (after.submits j).stage = some (eventId, stage) →
      (process.submits j).stage = some (eventId, stage) ∧
        after.db.tale eventId = process.db.tale eventId)
    (recordsLast : ∀ j, (after.submits j).RecordsLast) : after.Truthful storage where
  consistent := consistent
  isTrue := isTrue
  told j eventId stage writes := by
    obtain ⟨old, same⟩ := kept j eventId stage writes
    rw [same, truthful.told j eventId stage old]
  single i j eventId first second firstWrites secondWrites :=
    truthful.single i j eventId first second (kept i eventId first firstWrites).1
      (kept j eventId second secondWrites).1
  recordsLast := recordsLast

/-- A step of one submit keeps the process truthful. -/
theorem Process.Truthful.submit {after : Process} {i : Nat} {submit : Submit}
    (truthful : process.Truthful storage) (consistent : after.Consistent storage)
    (tells : Submit.Tells process.db after.db (process.submits i) submit)
    (recordsLast : submit.RecordsLast)
    (submits : after.submits = Function.update process.submits i submit) :
    after.Truthful storage := by
  have own : after.submits i = submit := by rw [submits, Function.update_self]
  have other {j : Nat} (different : j ≠ i) : after.submits j = process.submits j := by
    rw [submits, Function.update_of_ne different]
  have last (j : Nat) : (after.submits j).RecordsLast := by
    by_cases same : j = i
    · rw [same, own]
      exact recordsLast
    · rw [other same]
      exact truthful.recordsLast j
  cases tells with
  | silent ended same =>
      apply truthful.frame consistent (fun eventId => same eventId ▸ truthful.isTrue eventId) _ last
      intro j eventId stage writes
      refine ⟨?_, same eventId⟩
      by_cases mine : j = i
      · rw [mine, own, ended] at writes
        cases writes
      · rwa [other mine] at writes
  | writes eventId earlier later wrote writes move others =>
      obtain ⟨isTrue, told⟩ := move.isTrue (truthful.isTrue eventId)
      -- Another author writes another tale: the moved one was this submit's or had no event.
      have apart {j : Nat} {key : String} {stage : Stage} (different : j ≠ i)
          (author : (process.submits j).stage = some (key, stage)) : key ≠ eventId := by
        rintro rfl
        cases earlier with
        | some mine => exact different (truthful.single j i key stage mine author wrote)
        | none =>
            have empty := move.status
            rw [truthful.told j key stage author] at empty
            exact stage.tale_status.1 empty
      have mine {key : String} {stage : Stage} (author : submit.stage = some (key, stage)) :
          key = eventId ∧ later = some stage := by
        rw [writes, Option.map_eq_some_iff] at author
        obtain ⟨found, rfl, same⟩ := author
        obtain ⟨rfl, rfl⟩ := Prod.mk.inj same
        exact ⟨rfl, rfl⟩
      refine ⟨consistent, fun key => ?_, fun j key stage author => ?_,
        fun j k key first second firstAuthor secondAuthor => ?_, last⟩
      · by_cases same : key = eventId
        · exact same ▸ isTrue
        · exact others key same ▸ truthful.isTrue key
      · by_cases same : j = i
        · rw [same, own] at author
          obtain ⟨rfl, goes⟩ := mine author
          exact told stage goes
        · rw [other same] at author
          rw [others key (apart same author)]
          exact truthful.told j key stage author
      · by_cases firstOwn : j = i <;> by_cases secondOwn : k = i
        · rw [firstOwn, secondOwn]
        · rw [firstOwn, own] at firstAuthor
          rw [other secondOwn] at secondAuthor
          exact absurd (mine firstAuthor).1 (apart secondOwn secondAuthor)
        · rw [secondOwn, own] at secondAuthor
          rw [other firstOwn] at firstAuthor
          exact absurd (mine secondAuthor).1 (apart firstOwn firstAuthor)
        · rw [other firstOwn] at firstAuthor
          rw [other secondOwn] at secondAuthor
          exact truthful.single j k key first second firstAuthor secondAuthor

/-- A step of the worker keeps the process truthful. -/
theorem Process.Truthful.work {after : Process} (truthful : process.Truthful storage)
    (consistent : after.Consistent storage)
    (step : Worker.Step storage settings process.db action process.worker after.worker after.db)
    (submits : after.submits = process.submits) : after.Truthful storage := by
  have last (j : Nat) : (after.submits j).RecordsLast := submits ▸ truthful.recordsLast j
  have unmoved (same : after.db = process.db) : after.Truthful storage := by
    apply truthful.frame consistent (fun eventId => same ▸ truthful.isTrue eventId) _ last
    intro j eventId stage writes
    exact ⟨submits ▸ writes, by rw [same]⟩
  generalize worker : process.worker = before at step
  generalize later : after.worker = ended at step
  generalize stored : after.db = next at step
  cases step with
  | poll | absent | call | stale | raise | rest => exact unmoved stored
  | orphan fresh eventId remaining processed delivery present missing committed =>
      have empty := congrArg Entry.delivery ((truthful.consistent.valid eventId).absent missing)
      exact absurd (present.symm.trans empty) (by simp)
  | deliver delivery event traceId remaining processed outcome now draw delivered committed =>
      obtain ⟨_, entry⟩ := truthful.consistent.current delivery event (by rw [worker]; rfl)
      have queued := Entry.Valid.queued (entry ▸ truthful.consistent.valid event.eventId)
      have present : process.db.events.get event.eventId = some event := congrArg Entry.event entry
      obtain ⟨isTrue, others⟩ := deliver_tells present queued (truthful.isTrue event.eventId)
        delivered committed
      subst stored
      refine truthful.frame consistent (fun eventId => ?_) (fun j eventId stage writes => ?_) last
      · by_cases own : eventId = event.eventId
        · exact own ▸ isTrue
        · exact others eventId own ▸ truthful.isTrue eventId
      · rw [submits] at writes
        refine ⟨writes, others eventId fun same => ?_⟩
        have told := truthful.told j eventId stage writes
        rw [same, Database.tale, present] at told
        exact stage.tale_status.2 (by rw [← told]; exact congrArg some queued)

/-- Every step keeps the process truthful. -/
theorem Process.Truthful.step {after : Process} (truthful : process.Truthful storage)
    (taken : process.step storage settings action = some after) : after.Truthful storage := by
  have consistent := (truthful.consistent.step taken).1
  obtain ⟨i, submit, step, submits, _⟩ | ⟨step, submits⟩ | ⟨_, rfl⟩ := Process.step_cases taken
  · exact truthful.submit consistent
      (step.tells (truthful.consistent.owns i) (truthful.recordsLast i) (truthful.told i))
      step.recordsLast submits
  · exact truthful.work consistent step submits
  · apply truthful.frame consistent truthful.isTrue
    · intro j eventId stage writes
      cases writes
    · intro j record answer same
      cases same

/-- A step of a submit commits some work or leaves the database as it is. -/
theorem Submit.Step.commits {i : Nat} {before after : Submit}
    (step : Submit.Step storage settings db i action before after next) :
    next = db ∨ ∃ work, db.commit storage work = some next := by
  cases step with
  | arrive | lookup | rollback | relookup | stale | raise => exact .inl rfl
  | insert _ committed | call _ _ committed | settle _ _ _ _ _ committed
  | record _ _ committed => exact .inr ⟨_, committed⟩

/-- A step of the worker commits some work or leaves the database as it is. -/
theorem Worker.Step.commits {before after : Worker}
    (step : Worker.Step storage settings db action before after next) :
    next = db ∨ ∃ work, db.commit storage work = some next := by
  cases step with
  | poll | absent | call | stale | raise | rest => exact .inl rfl
  | orphan _ _ _ _ _ _ _ committed | deliver _ _ _ _ _ _ _ _ _ committed =>
      exact .inr ⟨_, committed⟩

end EventLedger.EventGateway
