import EventLedger.EventGateway.QueueAudit

namespace EventLedger.EventGateway
open Library Python

variable {storage : Storage} {settings : Settings} {db next : Database} {process : Process}
  {action : Action}

/-- These counters of the process follow the deliveries of the queue. -/
inductive Counter where
  | queuedEvents
  | processedEvents
  | retryEvents
  | failedEvents
  deriving DecidableEq

/-- The metrics live in the process and start from zero. -/
structure Metrics where
  counters : Counter → Nat
  queueDepth : Nat

def Metrics.zero : Metrics := ⟨fun _ => 0, 0⟩

def Metrics.inc (metrics : Metrics) : Option Counter → Metrics
  | none => metrics
  | some counter =>
      { metrics with
        counters := Function.update metrics.counters counter (metrics.counters counter + 1) }

/-- The queue counts its rows. -/
def Database.queueCount (db : Database) : Nat := db.deliveries.rows.length

/-- A submit counts a queued event. -/
def Submission.counter (settings : Settings) : CallOutcome → Option Counter
  | .unavailable _ => if settings.asyncFallbackEnabled then some .queuedEvents else none
  | .response _ | .raised => none

/-- The worker counts the end of each attempt. -/
def deliverCounter : CallOutcome → Option Counter
  | .unavailable _ => some .retryEvents
  | .response response =>
      if 400 ≤ response.statusCode then some .failedEvents else some .processedEvents
  | .raised => none

/-- A submit counts after its commit has succeeded. -/
def Submit.counted (storage : Storage) (settings : Settings) (db : Database)
    (outcome : CallOutcome) (now : Rat) : Submit → Option Counter
  | .calling submission event => do
      let (work, _) ← submission.settle settings event db now outcome
      let _ ← db.commit storage work
      Submission.counter settings outcome
  | _ => none

/-- The worker counts after its commit has succeeded. -/
def Worker.counted (storage : Storage) (settings : Settings) (db : Database)
    (outcome : CallOutcome) (now : Rat) (draw : Draw) : Worker → Option Counter
  | .calling delivery event traceId _ _ => do
      let (work, _) ← EventGateway.deliver settings delivery event traceId now draw outcome
      let _ ← db.commit storage work
      deliverCounter outcome
  | _ => none

/-- An action increments at most one counter, and a pass sets the gauge at its start and its end. -/
def Process.observe (storage : Storage) (settings : Settings) (process : Process)
    (metrics : Metrics) : Action → Metrics
  | .resume i outcome now =>
      metrics.inc ((process.submits i).counted storage settings process.db outcome now)
  | .deliver outcome now draw =>
      metrics.inc (process.worker.counted storage settings process.db outcome now draw)
  | .poll _ | .rest => { metrics with queueDepth := process.db.queueCount }
  | .crash => .zero
  | .arrive _ _ | .advance _ | .take _ => metrics

/-- The measured gateway also remembers the database that its process opened, and the counters at
the time when the gauge was set. -/
structure Measured where
  process : Process
  metrics : Metrics
  opened : Database
  gauged : Option (Counter → Nat)

def Measured.step (storage : Storage) (settings : Settings) (measured : Measured)
    (action : Action) : Option Measured :=
  (measured.process.step storage settings action).map fun next =>
    { process := next
      metrics := measured.process.observe storage settings measured.metrics action
      opened := match action with
        | .crash => measured.process.db
        | _ => measured.opened
      gauged := match action with
        | .poll _ | .rest => some measured.metrics.counters
        | .crash => none
        | _ => measured.gauged }

def measuredGateway (storage : Storage) (settings : Settings) : Machine Measured Action where
  initial := ⟨.crashed .empty, .zero, .empty, none⟩
  step := Measured.step storage settings

/-- Each counter stands for one action of the audit log. -/
def Counter.auditAction : Counter → AuditAction
  | .queuedEvents => .eventQueued
  | .processedEvents => .eventAppliedFromQueue
  | .retryEvents => .eventQueueRetryScheduled
  | .failedEvents => .eventQueueRejected

/-- The number of records with the action of a counter. -/
def Database.recorded (db : Database) (counter : Counter) : Nat :=
  db.audit.countP fun record => decide (record.action = counter.auditAction)

/-- A queued event adds a delivery. -/
def Counter.enters : Option Counter → Nat
  | some .queuedEvents => 1
  | _ => 0

/-- A processed or rejected event removes its delivery. -/
def Counter.leaves : Option Counter → Nat
  | some .processedEvents | some .failedEvents => 1
  | _ => 0

/-- The counter of a step accounts for its deliveries and its records. -/
structure Database.Tallied (db next : Database) (counted : Option Counter) : Prop where
  deliveries : next.queueCount + Counter.leaves counted = db.queueCount + Counter.enters counted
  records : ∀ counter, next.recorded counter =
    db.recorded counter + if counted = some counter then 1 else 0

theorem Database.tallied_refl (db : Database) : db.Tallied db none := ⟨rfl, fun _ => rfl⟩

/-- The action of a counter is about the queue. -/
theorem Counter.auditAction_aboutQueue (counter : Counter) : counter.auditAction.aboutQueue := by
  cases counter <;> rfl

theorem Counter.auditAction_inj {first second : Counter} :
    first.auditAction = second.auditAction ↔ first = second := by
  cases first <;> cases second <;> simp [auditAction]

/-- A commit without a delivery and without a queue record is not counted. -/
theorem Database.tallied_of_quiet {work : Work} (quiet : work.delivery = none)
    (silent : ∀ record ∈ work.records, record.action.aboutQueue = false)
    (committed : db.commit storage work = some next) : db.Tallied next none := by
  obtain ⟨_, flushed, audit⟩ := Database.commit_eq_some committed
  rw [quiet] at flushed
  refine ⟨?_, fun counter => ?_⟩
  · rw [queueCount, queueCount, ← Option.some.inj flushed]
    rfl
  · have none : work.records.countP (fun record => decide (record.action = counter.auditAction)) = 0 := by
      apply List.countP_eq_zero.mpr
      intro record member same
      have about := silent record member
      rw [of_decide_eq_true same, counter.auditAction_aboutQueue] at about
      cases about
    rw [recorded, audit, List.countP_append, none]
    rfl

/-- A commit with the one record of a counter is counted by it. -/
theorem Database.recorded_of_commit {work : Work} {record : AuditRecord} {counter : Counter}
    (records : work.records = [record]) (told : record.action = counter.auditAction)
    (committed : db.commit storage work = some next) (other : Counter) :
    next.recorded other = db.recorded other + if some counter = some other then 1 else 0 := by
  obtain ⟨_, _, audit⟩ := Database.commit_eq_some committed
  rw [recorded, audit, records, List.countP_append, List.countP_singleton, told]
  simp only [Counter.auditAction_inj, decide_eq_true_eq, Option.some.injEq]
  rfl

/-- The delete of a stored delivery removes one row. -/
theorem queueCount_of_delete {delivery : PendingDelivery} {work : Work} {eventId : String}
    (present : db.deliveries.get eventId = some delivery)
    (deletes : work.delivery = some (.delete eventId))
    (committed : db.commit storage work = some next) : next.queueCount + 1 = db.queueCount := by
  obtain ⟨_, flushed, _⟩ := Database.commit_eq_some committed
  rw [deletes] at flushed
  have erased : db.deliveries.erase eventId = next.deliveries := Option.some.inj flushed
  have reads (other : String) : next.deliveries.get other =
      if other = eventId then none else db.deliveries.get other := by
    rw [← erased, Table.get_erase]
  exact (Table.rows_perm_of_get present reads).length_eq.symm

/-- The end of an await is tallied by its counter. -/
theorem settle_tallied {submission : Submission} {outcome : CallOutcome} {now : Rat} {work : Work}
    {after : Submit}
    (absent : db.deliveries.get submission.command.eventId = none)
    (settled : submission.settle settings (submission.row storage) db now outcome =
      some (work, after))
    (committed : db.commit storage work = some next) :
    db.Tallied next (Submission.counter settings outcome) := by
  cases Submission.settles settled with
  | rejected | applied => exact Database.tallied_of_quiet rfl (fun _ member => by cases member) committed
  | failed message disabled =>
      rw [Submission.counter, if_neg disabled]
      exact Database.tallied_of_quiet rfl (fun _ member => by cases member) committed
  | queued message enabled =>
      rw [Submission.counter, if_pos enabled]
      obtain ⟨_, flushed, _⟩ := Database.commit_eq_some committed
      have enqueued : submission.enqueue db now = .insert (submission.delivery now) := by
        rw [Submission.enqueue, absent]
        rfl
      rw [enqueued] at flushed
      have inserted : db.deliveries.insert (submission.delivery now) = some next.deliveries := flushed
      refine ⟨?_, Database.recorded_of_commit rfl rfl committed⟩
      rw [Database.queueCount, Table.rows_insert inserted, List.length_append]
      rfl

/-- The end of an attempt is tallied by its counter. -/
theorem deliver_tallied {delivery : PendingDelivery} {event : Event} {traceId : String} {now : Rat}
    {draw : Draw} {outcome : CallOutcome} {work : Work} {done : Bool}
    (present : db.deliveries.get delivery.eventId = some delivery)
    (delivered : deliver settings delivery event traceId now draw outcome = some (work, done))
    (committed : db.commit storage work = some next) :
    db.Tallied next (deliverCounter outcome) := by
  cases delivered_of_deliver delivered with
  | rescheduled message =>
      refine ⟨?_, Database.recorded_of_commit rfl rfl committed⟩
      obtain ⟨_, flushed, _⟩ := Database.commit_eq_some committed
      obtain ⟨_, modified⟩ := Table.update_eq_some.mp flushed
      rw [Database.queueCount, ← modified, Table.rows_modify, List.length_map]
      rfl
  | rejected response error =>
      rw [deliverCounter, if_pos error]
      exact ⟨queueCount_of_delete present rfl committed,
        Database.recorded_of_commit rfl rfl committed⟩
  | applied response success =>
      rw [deliverCounter, if_neg success]
      exact ⟨queueCount_of_delete present rfl committed,
        Database.recorded_of_commit rfl rfl committed⟩

/-- The counter that a step of the process increments. -/
def Process.counted (storage : Storage) (settings : Settings) (process : Process) :
    Action → Option Counter
  | .resume i outcome now => (process.submits i).counted storage settings process.db outcome now
  | .deliver outcome now draw =>
      process.worker.counted storage settings process.db outcome now draw
  | .arrive _ _ | .advance _ | .poll _ | .take _ | .rest | .crash => none

/-- A step of a submit is tallied by its counter. -/
theorem Submit.Step.tallied {i : Nat} {before after : Submit}
    (step : Submit.Step storage settings db i action before after next) (quiet : before.Quiet)
    (owns : before.Owns storage db) :
    ∃ counted, db.Tallied next counted ∧
      (∀ process : Process, process.db = db → process.submits i = before →
        process.counted storage settings action = counted) := by
  cases step with
  | arrive | lookup | rollback | relookup => exact ⟨none, db.tallied_refl, fun _ _ _ => rfl⟩
  | insert submission committed =>
      exact ⟨none, Database.tallied_of_quiet rfl (fun _ member => by cases member) committed,
        fun _ _ _ => rfl⟩
  | call submission event committed =>
      refine ⟨none, Database.tallied_of_quiet rfl (fun record member => ?_) committed, fun _ _ _ => rfl⟩
      rw [List.mem_singleton.mp member]
      rfl
  | record record answer committed =>
      refine ⟨none, Database.tallied_of_quiet rfl (fun other member => ?_) committed, fun _ _ _ => rfl⟩
      rw [List.mem_singleton.mp member]
      exact quiet record answer rfl
  | settle submission event outcome now settled committed =>
      obtain ⟨rfl, pending⟩ := owns submission event rfl
      refine ⟨_, settle_tallied (congrArg Entry.delivery pending) settled committed,
        fun process same calling => ?_⟩
      rw [Process.counted, calling, same, Submit.counted, settled]
      simp [committed]
  | stale submission event outcome now settled violated =>
      obtain ⟨rfl, pending⟩ := owns submission event rfl
      exact absurd violated (settle_commits pending settled)
  | raise submission event outcome now escaped =>
      refine ⟨none, db.tallied_refl, fun process same calling => ?_⟩
      rw [Process.counted, calling, same, Submit.counted, escaped]
      rfl

/-- A step of the worker is tallied by its counter. -/
theorem Worker.Step.tallied {before after : Worker}
    (step : Worker.Step storage settings db action before after next)
    (valid : ∀ eventId, (db.entry eventId).Valid) (current : before.Current db) :
    ∃ counted, db.Tallied next counted ∧
      (∀ process : Process, process.db = db → process.worker = before →
        process.counted storage settings action = counted) := by
  cases step with
  | poll | absent | call | rest => exact ⟨none, db.tallied_refl, fun _ _ _ => rfl⟩
  | orphan fresh eventId remaining processed delivery present missing committed =>
      have empty := congrArg Entry.delivery ((valid eventId).absent missing)
      exact absurd (present.symm.trans empty) (by simp)
  | deliver delivery event traceId remaining processed outcome now draw delivered committed =>
      obtain ⟨own, entry⟩ := current delivery event rfl
      have present : db.deliveries.get delivery.eventId = some delivery := by
        rw [own]
        exact congrArg Entry.delivery entry
      refine ⟨_, deliver_tallied present delivered committed, fun process same calling => ?_⟩
      rw [Process.counted, calling, same, Worker.counted, delivered]
      simp [committed]
  | stale delivery event traceId remaining processed outcome now draw delivered violated =>
      refine ⟨none, db.tallied_refl, fun process same calling => ?_⟩
      rw [Process.counted, calling, same, Worker.counted, delivered]
      simp [violated]
  | raise delivery event traceId remaining processed outcome now draw escaped =>
      refine ⟨none, db.tallied_refl, fun process same calling => ?_⟩
      rw [Process.counted, calling, same, Worker.counted, escaped]
      rfl

/-- Every step of the process is tallied by the counter that it increments. -/
theorem Process.tallied {after : Process} (audited : process.Audited storage)
    (taken : process.step storage settings action = some after) :
    process.db.Tallied after.db (process.counted storage settings action) := by
  obtain ⟨i, submit, step, _, _⟩ | ⟨step, _⟩ | ⟨rfl, rfl⟩ := Process.step_cases taken
  · obtain ⟨counted, tallied, same⟩ := step.tallied (audited.quiet i) (audited.consistent.owns i)
    rw [same process rfl rfl]
    exact tallied
  · obtain ⟨counted, tallied, same⟩ :=
      step.tallied audited.consistent.valid audited.consistent.current
    rw [same process rfl rfl]
    exact tallied
  · exact process.db.tallied_refl

/-- The metrics account for the queue and for the audit log since the process opened its database,
and the gauge counted the queue when it was set. -/
structure Measured.Agrees (measured : Measured) : Prop where
  conserved : measured.process.db.queueCount + measured.metrics.counters .processedEvents +
      measured.metrics.counters .failedEvents =
    measured.opened.queueCount + measured.metrics.counters .queuedEvents
  recorded : ∀ counter, measured.process.db.recorded counter =
    measured.opened.recorded counter + measured.metrics.counters counter
  gauge : ∀ earlier, measured.gauged = some earlier →
    measured.metrics.queueDepth + earlier .processedEvents + earlier .failedEvents =
      measured.opened.queueCount + earlier .queuedEvents

@[simp] theorem Metrics.inc_counters (metrics : Metrics) (counted : Option Counter)
    (counter : Counter) : (metrics.inc counted).counters counter =
      metrics.counters counter + if counted = some counter then 1 else 0 := by
  cases counted with
  | none => rfl
  | some other =>
      by_cases same : counter = other
      · subst same
        simp [inc]
      · simp [inc, same, Ne.symm same]

@[simp] theorem Metrics.inc_queueDepth (metrics : Metrics) (counted : Option Counter) :
    (metrics.inc counted).queueDepth = metrics.queueDepth := by
  cases counted <;> rfl

/-- A step that increments the counter that tallies it keeps the metrics in agreement. -/
theorem Measured.Agrees.inc {measured : Measured} {counted : Option Counter} {after : Process}
    (agrees : measured.Agrees) (tallied : measured.process.db.Tallied after.db counted) :
    Measured.Agrees ⟨after, measured.metrics.inc counted, measured.opened, measured.gauged⟩ where
  conserved := by
    have moved := tallied.deliveries
    have before := agrees.conserved
    simp only [Metrics.inc_counters]
    cases counted with
    | none =>
        simp only [Counter.leaves, Counter.enters] at moved
        simp
        omega
    | some counter =>
        cases counter <;> simp only [Counter.leaves, Counter.enters] at moved <;> simp <;> omega
  recorded counter := by
    rw [Metrics.inc_counters, ← Nat.add_assoc, ← agrees.recorded, tallied.records]
  gauge earlier gauged := by
    rw [Metrics.inc_queueDepth]
    exact agrees.gauge earlier gauged

/-- Every step of the measured gateway is a step of the gateway. -/
theorem measured_reachable {measured : Measured}
    (reached : (measuredGateway storage settings).Reachable measured) :
    (gateway storage settings).Reachable measured.process := by
  apply reached.project Measured.process rfl
  intro state action after taken
  obtain ⟨next, stepped, rfl⟩ := Option.map_eq_some_iff.mp taken
  exact .inr ⟨action, stepped⟩

/-- Every step keeps the metrics in agreement. -/
theorem Measured.Agrees.step {measured after : Measured} (agrees : measured.Agrees)
    (audited : measured.process.Audited storage)
    (taken : measured.step storage settings action = some after) : after.Agrees := by
  obtain ⟨next, stepped, rfl⟩ := Option.map_eq_some_iff.mp taken
  have tallied := Process.tallied audited stepped
  cases action with
  | arrive | advance | take | resume | deliver => exact agrees.inc tallied
  | poll | rest =>
      have kept := agrees.inc tallied
      refine ⟨kept.conserved, kept.recorded, fun earlier gauged => ?_⟩
      obtain rfl := Option.some.inj gauged
      exact agrees.conserved
  | crash =>
      obtain rfl := Option.some.inj stepped
      exact ⟨rfl, fun _ => rfl, fun _ gauged => by cases gauged⟩

/-- In every reachable state the counters conserve the queue, agree with the audit log, and explain
the gauge. -/
theorem metrics_agree {measured : Measured}
    (reached : (measuredGateway storage settings).Reachable measured) : measured.Agrees :=
  reached.invariant _ ⟨rfl, fun _ => rfl, fun _ gauged => by cases gauged⟩
    fun _ _ _ before agrees taken => agrees.step (audited_of_reachable (measured_reachable before)) taken

/-- Two events are queued, the process restarts, and a pass applies one of them and retries the
other. -/
def restartedPass : List Action :=
  [.arrive 0 ⟨creditX.event, "trace"⟩, .advance 0, .advance 0, .advance 0,
    .resume 0 (.unavailable "timeout") 0,
    .arrive 1 ⟨creditY.event, "trace"⟩, .advance 1, .advance 1, .advance 1,
    .resume 1 (.unavailable "timeout") 0, .crash, .poll 1, .take "fresh",
    .deliver (.response ⟨201, "application/json", some "", none⟩) 1 .zero, .take "fresh",
    .deliver (.unavailable "timeout") 1 .zero]

theorem metrics_agree_restarted : ∃ measured,
    (measuredGateway .wallClock .default).run (measuredGateway .wallClock .default).initial restartedPass =
      some measured ∧ measured.metrics.counters .retryEvents = 1 ∧ measured.Agrees := by
  obtain ⟨measured, ran⟩ := Option.isSome_iff_exists.mp
    (show ((measuredGateway .wallClock .default).run (measuredGateway .wallClock .default).initial
      restartedPass).isSome by decide +kernel)
  have retried : (((measuredGateway .wallClock .default).run
      (measuredGateway .wallClock .default).initial restartedPass).map
        fun state => state.metrics.counters .retryEvents) = some 1 := by decide +kernel
  rw [ran] at retried
  exact ⟨measured, ran, Option.some.inj retried,
    metrics_agree (Machine.reachable_of_run restartedPass .initial ran)⟩

end EventLedger.EventGateway
