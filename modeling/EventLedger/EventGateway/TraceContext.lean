import EventLedger.EventGateway.Classification
import EventLedger.EventGateway.Payloads

namespace EventLedger.EventGateway
open Library Python

variable {storage : Storage} {settings : Settings} {db next : Database} {process after : Process}
  {action : Action} {eventId traceId : String}

section Context
variable {Result : Type}

/-- A task sees the database and its own trace context. -/
structure Task where
  db : Database
  context : String

/-- The context manager sets the trace id for its body and resets it on every exit. -/
def traceContext (traceId fresh : String) (body : Task → Result × Task) (task : Task) :
    Result × Task :=
  let token := task.context
  let (result, after) := body { task with context := normalizeTraceId (some traceId) fresh }
  (result, { after with context := token })

/-- The client sends the payload under the context of its task, and other tasks write meanwhile. -/
abbrev Client : Type := Payload → String → Database → CallOutcome × Database

/-- The body of the context manager awaits the client and commits the end of the attempt, and an
exception that leaves it gives no result. -/
def attempt (storage : Storage) (settings : Settings) (client : Client) (delivery : PendingDelivery)
    (event : Event) (now : Rat) (draw : Draw) (task : Task) : Option Bool × Task :=
  let (outcome, db) := client delivery.payloadJson task.context task.db
  match deliver settings delivery event task.context now draw outcome with
  | some (work, done) =>
      match db.commit storage work with
      | some next => (some done, { task with db := next })
      | none => (none, { task with db := db })
  | none => (none, { task with db := db })

def processEvent (storage : Storage) (settings : Settings) (client : Client) (fresh : String)
    (now : Rat) (draw : Draw) (eventId : String) (task : Task) : Option Bool × Task :=
  match take task.db eventId with
  | .absent => (some false, task)
  | .orphan work =>
      match task.db.commit storage work with
      | some next => (some false, { task with db := next })
      | none => (none, task)
  | .calling delivery event =>
      traceContext delivery.traceId fresh
        (attempt storage settings client delivery event now draw) task

/-- Every exit of the context manager leaves the surrounding context as it was. -/
@[simp] theorem traceContext_context (traceId fresh : String) (body : Task → Result × Task)
    (task : Task) : (traceContext traceId fresh body task).2.context = task.context := rfl

/-- Every attempt of the worker leaves the surrounding context as it was. -/
theorem processEvent_context (client : Client) (fresh : String) (now : Rat) (draw : Draw)
    (eventId : String) (task : Task) :
    (processEvent storage settings client fresh now draw eventId task).2.context =
      task.context := by
  unfold processEvent
  split
  · rfl
  · split <;> rfl
  · exact traceContext_context _ _ _ _

/-- The pass counts a processed delivery, and an exception ends it. -/
def Worker.finish (remaining : List String) (processed : Nat) : Option Bool → Worker
  | some done => .passing remaining (if done then processed + 1 else processed)
  | none => .idle

/-- The body of the context manager is the delivery of the worker under the current context. -/
theorem attempt_deliver {client : Client} {delivery : PendingDelivery} {event : Event} {now : Rat}
    {draw : Draw} {task later : Task} {result : Option Bool}
    (ended : attempt storage settings client delivery event now draw task = (result, later))
    (remaining : List String) (processed : Nat) :
    ∃ outcome db, client delivery.payloadJson task.context task.db = (outcome, db) ∧
      (Worker.calling delivery event task.context remaining processed).deliver storage settings db
        outcome now draw = some (.finish remaining processed result, later.db) := by
  unfold attempt at ended
  obtain ⟨outcome, db, called⟩ : ∃ outcome db,
      client delivery.payloadJson task.context task.db = (outcome, db) := ⟨_, _, rfl⟩
  refine ⟨outcome, db, called, ?_⟩
  simp only [called, Worker.deliver] at ended ⊢
  cases delivered : EventGateway.deliver settings delivery event task.context now draw outcome with
  | none =>
      simp only [delivered] at ended ⊢
      obtain ⟨rfl, rfl⟩ := Prod.mk.inj ended
      rfl
  | some prepared =>
      simp only [delivered] at ended ⊢
      cases committed : db.commit storage prepared.1 with
      | none | some next =>
          simp only [committed] at ended ⊢
          obtain ⟨rfl, rfl⟩ := Prod.mk.inj ended
          rfl

/-- An attempt of the worker is its take and, after a call, its delivery. -/
theorem processEvent_steps {client : Client} {fresh : String} {now : Rat} {draw : Draw}
    {task later : Task} {result : Option Bool}
    (ended : processEvent storage settings client fresh now draw eventId task = (result, later))
    (remaining : List String) (processed : Nat) :
    (Worker.passing (eventId :: remaining) processed).take storage task.db fresh =
        some (.finish remaining processed result, later.db) ∨
      ∃ delivery event traceId outcome db,
        (Worker.passing (eventId :: remaining) processed).take storage task.db fresh =
          some (.calling delivery event traceId remaining processed, task.db) ∧
        client delivery.payloadJson traceId task.db = (outcome, db) ∧
        (Worker.calling delivery event traceId remaining processed).deliver storage settings db
          outcome now draw = some (.finish remaining processed result, later.db) := by
  unfold processEvent at ended
  simp only [Worker.take]
  cases taken : EventGateway.take task.db eventId with
  | absent =>
      simp only [taken] at ended ⊢
      obtain ⟨rfl, rfl⟩ := Prod.mk.inj ended
      exact .inl rfl
  | orphan work =>
      simp only [taken] at ended ⊢
      cases committed : task.db.commit storage work with
      | none | some next =>
          simp only [committed] at ended ⊢
          obtain ⟨rfl, rfl⟩ := Prod.mk.inj ended
          exact .inl rfl
  | calling delivery event =>
      simp only [taken, traceContext] at ended ⊢
      obtain ⟨rfl, rfl⟩ := Prod.mk.inj ended
      let inner : Task := ⟨task.db, normalizeTraceId (some delivery.traceId) fresh⟩
      obtain ⟨outcome, db, called, delivered⟩ := attempt_deliver
        (show attempt storage settings client delivery event now draw inner = (_, _) from rfl)
        remaining processed
      exact .inr ⟨delivery, event, _, outcome, db, rfl, called, delivered⟩

end Context

section Under

/-- A submit works under the trace id of its submission or of the record that it prepared. -/
def Submit.Under (traceId : String) : Submit → Prop
  | .received submission | .inserting submission | .conflicted submission
  | .stored submission _ | .calling submission _ => submission.traceId = traceId
  | .recording record _ => record.traceId = traceId
  | .answered _ => True
  | .idle => False

theorem Submission.Finds.under {submission : Submission} {submit : Submit}
    (finds : submission.Finds db submit) : submit.Under submission.traceId := by
  cases finds with
  | overflow => trivial
  | replay | conflict => rfl

/-- The end of an await records under the trace id of the submission. -/
theorem Submission.settle_under {submission : Submission} {event : Event} {outcome : CallOutcome}
    {now : Rat} {work : Work} {later : Submit}
    (settled : submission.settle settings event db now outcome = some (work, later)) :
    later.Under submission.traceId ∧ ∀ record ∈ work.records, record.traceId = submission.traceId := by
  cases Submission.settles settled with
  | rejected response =>
      refine ⟨?_, by simp⟩
      unfold rejected
      split
      · trivial
      · rfl
  | applied | failed => exact ⟨rfl, by simp⟩
  | queued => exact ⟨trivial, by simp [record]⟩

/-- A step of a submit stays under its trace id and writes its records under it. -/
theorem Submit.Step.under {i : Nat} {before later : Submit}
    (step : Submit.Step storage settings db i action before later next)
    (under : before.Under traceId) : later.Under traceId ∧
      ∃ records, next.audit = db.audit ++ records ∧ ∀ record ∈ records, record.traceId = traceId := by
  have silent : ∃ records, db.audit = db.audit ++ records ∧
      ∀ record ∈ records, record.traceId = traceId := ⟨[], by simp, by simp⟩
  cases step with
  | arrive => cases under
  | lookup submission =>
      obtain rfl := under
      refine ⟨?_, silent⟩
      rcases submission.lookup_cases db with ⟨_, inserts⟩ | finds
      · rw [inserts]
        rfl
      · exact finds.under
  | relookup submission =>
      obtain rfl := under
      refine ⟨?_, silent⟩
      rcases submission.relookup_cases db with ⟨_, conflicts⟩ | finds
      · rw [conflicts]
        rfl
      · exact finds.under
  | insert submission committed =>
      obtain ⟨_, _, audit⟩ := Database.commit_eq_some committed
      exact ⟨under, [], audit, by simp⟩
  | rollback => exact ⟨under, silent⟩
  | call submission event committed =>
      obtain rfl := under
      obtain ⟨_, _, audit⟩ := Database.commit_eq_some committed
      exact ⟨rfl, _, audit, by simp [Submission.record]⟩
  | settle submission event outcome now settled committed =>
      obtain rfl := under
      obtain ⟨_, _, audit⟩ := Database.commit_eq_some committed
      obtain ⟨later, records⟩ := Submission.settle_under settled
      exact ⟨later, _, audit, records⟩
  | stale | raise => exact ⟨trivial, silent⟩
  | record record answer committed =>
      obtain ⟨_, _, audit⟩ := Database.commit_eq_some committed
      exact ⟨trivial, _, audit, fun other member => List.mem_singleton.mp member ▸ under⟩

/-- A submit stays under its trace id until a crash and writes its records under it. -/
theorem Process.under_step {i : Nat} (taken : process.step storage settings action = some after)
    (running : action ≠ .crash) (under : (process.submits i).Under traceId) :
    (after.submits i).Under traceId ∧ (action.call = some i →
      ∃ records, after.db.audit = process.db.audit ++ records ∧
        ∀ record ∈ records, record.traceId = traceId) := by
  rcases Process.step_cases taken with
    ⟨j, submit, step, submits, _⟩ | ⟨step, submits⟩ | ⟨crashed, _⟩
  · rw [submits]
    by_cases own : i = j
    · subst own
      rw [Function.update_self]
      obtain ⟨later, records⟩ := step.under under
      exact ⟨later, fun _ => records⟩
    · rw [Function.update_of_ne own]
      refine ⟨under, fun called => ?_⟩
      exact absurd (Option.some.inj (called.symm.trans step.call_eq)) own
  · refine ⟨submits ▸ under, fun called => ?_⟩
    rw [step.call_eq] at called
    cases called
  · exact absurd crashed running

/-- A submit keeps its own submission until a crash. -/
theorem Process.submission_kept {i : Nat}
    (taken : process.step storage settings action = some after)
    (under : (process.submits i).Under traceId) {submission : Submission}
    (kept : (after.submits i).submission = some submission) :
    (process.submits i).submission = some submission := by
  rcases Process.submission_of_step taken kept with old | rfl
  · exact old
  · simp only [Process.step] at taken
    split at taken
    · next idle =>
        rw [idle] at under
        cases under
    · cases taken

/-- The worker records only at the end of an attempt, under the trace id that it set. -/
theorem Worker.Step.records {before later : Worker}
    (step : Worker.Step storage settings db action before later next) :
    ∃ records, next.audit = db.audit ++ records ∧ ∀ record ∈ records,
      ∃ delivery event remaining processed,
        before = .calling delivery event record.traceId remaining processed ∧
          record.eventId = event.eventId := by
  cases step with
  | orphan _ _ _ _ _ _ _ committed =>
      obtain ⟨_, _, audit⟩ := Database.commit_eq_some committed
      exact ⟨[], audit, by simp⟩
  | deliver delivery event traceId remaining processed outcome now draw delivered committed =>
      obtain ⟨_, _, audit⟩ := Database.commit_eq_some committed
      refine ⟨_, audit, fun record member => ?_⟩
      cases delivered_of_deliver delivered with
      | rescheduled | rejected | applied =>
          obtain rfl := List.mem_singleton.mp member
          exact ⟨delivery, event, remaining, processed, rfl, rfl⟩
  | poll | absent | call | stale | raise | rest => exact ⟨[], by simp, by simp⟩

end Under

section Traces

/-- The process carries a trace id for an event in its submit, in its delivery and in its worker. -/
inductive Process.Traces (process : Process) (eventId traceId : String) : Prop where
  | owned (i : Nat) (submission : Submission) (event : Event)
      (owned : (process.submits i).owned = some (submission, event))
      (own : submission.command.eventId = eventId) (same : submission.traceId = traceId)
  | queued (delivery : PendingDelivery) (queued : process.db.deliveries.get eventId = some delivery)
      (same : delivery.traceId = traceId)
  | held (delivery : PendingDelivery) (event : Event) (remaining : List String) (processed : Nat)
      (held : process.worker = .calling delivery event traceId remaining processed)
      (own : event.eventId = eventId)

/-- The process carries no trace id for an event that is not stored. -/
theorem Process.Consistent.untraced (consistent : process.Consistent storage)
    (absent : process.db.events.get eventId = none) : ¬ process.Traces eventId traceId := by
  have stored {event : Event} {delivery : Option PendingDelivery}
      (entry : process.db.entry eventId = ⟨some event, delivery⟩) : False :=
    absurd (absent.symm.trans (congrArg Entry.event entry)) (by simp)
  intro traces
  cases traces with
  | owned i submission event owned own =>
      exact stored (own ▸ (consistent.owns i submission event owned).2)
  | queued delivery queued =>
      have empty := congrArg Entry.delivery ((consistent.valid eventId).absent absent)
      exact absurd (queued.symm.trans empty) (by simp)
  | held delivery event remaining processed held own =>
      exact stored (own ▸ (consistent.current delivery event (by rw [held]; rfl)).2)

/-- A delivery is queued by the submit that owns its event, or it was queued before. -/
theorem Submit.Step.queued {i : Nat} {before later : Submit}
    (step : Submit.Step storage settings db i action before later next)
    (owns : before.Owns storage db)
    {delivery : PendingDelivery} (queued : next.deliveries.get eventId = some delivery) :
    db.deliveries.get eventId = some delivery ∨
      ∃ submission now, before.owned = some (submission, submission.row storage) ∧
        submission.command.eventId = eventId ∧ delivery = submission.delivery now := by
  have kept {work : Work} (committed : db.commit storage work = some next)
      (silent : work.delivery = none) : db.deliveries.get eventId = some delivery := by
    obtain ⟨_, deliveries, _⟩ := Database.commit_eq_some committed
    rw [silent] at deliveries
    rwa [Option.some.inj deliveries]
  cases step with
  | arrive | lookup | rollback | relookup | stale | raise => exact .inl queued
  | insert submission committed => exact .inl (kept committed rfl)
  | call submission event committed => exact .inl (kept committed rfl)
  | record record answer committed => exact .inl (kept committed rfl)
  | settle submission event outcome now settled committed =>
      obtain ⟨rfl, pending⟩ := owns submission event rfl
      obtain ⟨present, absent⟩ := Entry.mk.inj pending
      obtain ⟨_, ⟨_, rfl⟩ | ⟨_, rfl⟩⟩ := Submission.settle_cases absent settled
      · exact .inl (kept committed rfl)
      · rcases delivery_of_changed (Database.commit_queue present rfl committed) queued with
          ⟨own, new⟩ | ⟨_, old⟩
        · exact .inr ⟨submission, now, rfl, own.symm, (Option.some.inj new).symm⟩
        · exact .inl old

/-- A step of the worker keeps the trace id of a queued delivery. -/
theorem Worker.Effect.queued {before later : Worker}
    (effect : Worker.Effect storage db next action before later) {delivery : PendingDelivery}
    (queued : next.deliveries.get eventId = some delivery) : ∃ earlier,
      db.deliveries.get eventId = some earlier ∧ earlier.traceId = delivery.traceId := by
  cases effect with
  | silent _ same | call _ _ _ _ same =>
      exact ⟨delivery, (congrArg Entry.delivery (same eventId)).symm.trans queued, rfl⟩
  | deliver held event entry _ _ current move _ _ changed =>
      rcases delivery_of_changed changed queued with ⟨rfl, moved⟩ | ⟨_, old⟩
      · refine ⟨held, congrArg Entry.delivery current, ?_⟩
        cases move with
        | reschedule => rw [← Option.some.inj moved]
        | dequeue => cases moved
      · exact ⟨delivery, old, rfl⟩

/-- The worker calls under the normalized trace id of a queued delivery. -/
theorem Worker.Step.called {before later : Worker} {delivery : PendingDelivery} {event : Event}
    {remaining : List String} {processed : Nat}
    (step : Worker.Step storage settings db action before later next)
    (calls : later = .calling delivery event traceId remaining processed) :
    ∃ earlier fresh, db.deliveries.get event.eventId = some earlier ∧
      traceId = normalizeTraceId (some earlier.traceId) fresh := by
  cases step with
  | call fresh eventId remaining processed earlier stored queued present =>
      cases calls
      have key : event.eventId = eventId := Table.key_of_get present
      exact ⟨delivery, fresh, key ▸ queued, rfl⟩
  | poll | absent | orphan | deliver | stale | raise | rest => cases calls

/-- A step carries only old trace ids for a stored event, up to a normalization, and a new event is
carried by the submit that has stored it. -/
theorem Process.Consistent.traces (consistent : process.Consistent storage)
    (taken : process.step storage settings action = some after)
    (traces : after.Traces eventId traceId) :
    (∃ earlier, process.Traces eventId earlier ∧
        (traceId = earlier ∨ ∃ fresh, traceId = normalizeTraceId (some earlier) fresh)) ∨
      process.db.events.get eventId = none ∧ ∃ i submission event,
        (after.submits i).owned = some (submission, event) ∧
          submission.command.eventId = eventId ∧ submission.traceId = traceId := by
  cases traces with
  | owned i submission event owned own same =>
      rcases consistent.owner taken owned with before | absent
      · exact .inl ⟨traceId, .owned i submission event before own same, .inl rfl⟩
      · exact .inr ⟨own ▸ absent, i, submission, event, owned, own, same⟩
  | queued delivery queued same =>
      left
      rcases Process.step_cases taken with ⟨i, submit, step, _, _⟩ | ⟨step, _⟩ | ⟨_, rfl⟩
      · rcases step.queued (consistent.owns i) queued with before | ⟨submission, now, owned, own, rfl⟩
        · exact ⟨traceId, .queued delivery before same, .inl rfl⟩
        · exact ⟨traceId, .owned i submission _ owned own same, .inl rfl⟩
      · obtain ⟨earlier, before, kept⟩ :=
          (step.effect consistent.valid consistent.current).queued queued
        exact ⟨traceId, .queued earlier before (kept.trans same), .inl rfl⟩
      · exact ⟨traceId, .queued delivery queued same, .inl rfl⟩
  | held delivery event remaining processed held own =>
      left
      rcases Process.step_cases taken with ⟨_, _, _, _, worker⟩ | ⟨step, _⟩ | ⟨_, rfl⟩
      · exact ⟨traceId, .held delivery event remaining processed (worker ▸ held) own, .inl rfl⟩
      · obtain ⟨earlier, fresh, queued, same⟩ := step.called held
        exact ⟨earlier.traceId, .queued earlier (own ▸ queued) rfl, .inr ⟨fresh, same⟩⟩
      · cases held

end Traces

end EventLedger.EventGateway
