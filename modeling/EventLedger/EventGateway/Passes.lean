import EventLedger.EventGateway.Classification
import EventLedger.EventGateway.DeliveryQueue
import Mathlib.Tactic.Linarith

namespace EventLedger.EventGateway
open Library Python

variable {storage : Storage} {settings : Settings} {db next : Database} {process after : Process}
  {action : Action} {worker later : Worker}

/-- An attempt of the worker ends with an outcome at a time, with a draw for a backoff. -/
structure Ending where
  outcome : CallOutcome
  now : Rat
  draw : Draw

/-- An answered attempt removes its delivery and settles its event, and an unavailable one
reschedules its delivery. -/
def Entry.attempted (settings : Settings) (ending : Ending) (entry : Entry) : Entry :=
  match ending.outcome with
  | .response _ =>
      ⟨entry.event.map fun event => event.withStatus (deliveredStatus ending.outcome), none⟩
  | .unavailable message =>
      { entry with delivery := entry.delivery.map fun delivery =>
          { delivery with
            attemptCount := delivery.attemptCount + 1
            lastError := some message
            nextAttemptAt := ending.now +
              backoffSeconds settings (delivery.attemptCount + 1) ending.draw } }
  | .raised => entry

/-- The pass goes on after an attempt unless an exception ends it. -/
def Worker.resumed (remaining : List String) (processed : Nat) : CallOutcome → Worker
  | .response _ => .passing remaining (processed + 1)
  | .unavailable _ => .passing remaining processed
  | .raised => .idle

/-- The worker attempts the delivery that it holds. -/
def Worker.attempt (worker : Worker) : Action → Option PendingDelivery
  | .deliver _ _ _ => worker.held.map Prod.fst
  | .arrive _ _ | .advance _ | .resume _ _ _ | .poll _ | .take _ | .rest | .crash => none

theorem Worker.attempt_of_call {i : Nat} (submits : action.call = some i) :
    worker.attempt action = none := by
  cases action with
  | deliver => cases submits
  | arrive | advance | resume | poll | take | rest | crash => rfl

/-- The attempts of a run are read in its order. -/
def attempts (trace : Trace Process Action) : List PendingDelivery :=
  trace.filterMap fun transition => transition.before.worker.attempt transition.action

theorem attempts_append (trace : Trace Process Action) (transition : Transition Process Action) :
    attempts (trace ++ [transition]) =
      attempts trace ++ (transition.before.worker.attempt transition.action).toList :=
  filterMap_concat _ _ _

section Attempt
variable {outcome : CallOutcome} {now : Rat} {draw : Draw}

/-- An answer settles the queued event and deletes its delivery. -/
theorem deliver_response {event : Event} (queued : event.processingStatus = .queued)
    (delivery : PendingDelivery) (traceId : String) (response : Response) : ∃ records,
      deliver settings delivery event traceId now draw (.response response) =
        some (⟨some (.assign event.eventId (deliveredStatus (.response response))),
          some (.delete delivery.eventId), records⟩, true) := by
  simp only [deliver, deliveredStatus]
  split
  · exact ⟨_, by rw [Event.assign_of_ne (by rw [queued]; decide)]⟩
  · exact ⟨_, by rw [Event.assign_of_ne (by rw [queued]; decide)]⟩

/-- The end of an attempt changes the entry of its event as the outcome says. -/
theorem Worker.Step.attempted
    (step : Worker.Step storage settings db (.deliver outcome now draw) worker later next)
    (valid : ∀ eventId, (db.entry eventId).Valid)
    (current : worker.Current db) :
    ∃ delivery event traceId remaining processed,
      worker = .calling delivery event traceId remaining processed ∧
      later = .resumed remaining processed outcome ∧
      ∀ eventId, next.entry eventId = if eventId = delivery.eventId then
        (db.entry eventId).attempted settings ⟨outcome, now, draw⟩ else db.entry eventId := by
  cases step with
  | deliver delivery event traceId remaining processed _ _ _ delivered committed =>
      obtain ⟨own, entry⟩ := current delivery event rfl
      have queued := Entry.Valid.queued (entry ▸ valid event.eventId)
      obtain ⟨stored, waiting⟩ := Entry.mk.inj entry
      refine ⟨delivery, event, traceId, remaining, processed, rfl, ?_⟩
      rw [own]
      cases outcome with
      | response response =>
          obtain ⟨records, works⟩ := deliver_response queued delivery traceId response
          obtain ⟨rfl, rfl⟩ := Prod.mk.inj (Option.some.inj (delivered.symm.trans works))
          rw [own] at committed
          refine ⟨rfl, fun eventId => ?_⟩
          rw [Database.commit_dequeue stored committed]
          by_cases same : eventId = event.eventId
          · rw [if_pos same, if_pos same, same, entry]
            rfl
          · rw [if_neg same, if_neg same]
      | unavailable message =>
          cases delivered
          rw [own] at committed
          refine ⟨rfl, fun eventId => ?_⟩
          rw [Database.commit_reschedule waiting committed]
          by_cases same : eventId = event.eventId
          · rw [if_pos same, if_pos same, same, entry, stored]
            rfl
          · rw [if_neg same, if_neg same]
      | raised => cases delivered
  | stale delivery event traceId remaining processed _ _ _ delivered violated =>
      obtain ⟨own, entry⟩ := current delivery event rfl
      have queued := Entry.Valid.queued (entry ▸ valid event.eventId)
      exact absurd violated (deliver_commits own entry queued delivered)
  | raise delivery event traceId remaining processed _ _ _ escaped =>
      obtain rfl := raised_of_deliver escaped
      exact ⟨delivery, event, traceId, remaining, processed, rfl, rfl,
        fun eventId => (ite_self _).symm⟩

end Attempt

/-- An event is released when its submit has settled it. -/
def Entry.Released (entry : Entry) : Prop :=
  ∃ event, entry.event = some event ∧ event.processingStatus ≠ .pending

/-- Submits leave the entries of released events alone. -/
theorem Submit.Effect.released {i : Nat} {before submit : Submit}
    (effect : Submit.Effect storage settings db next i action before submit) {eventId : String}
    (released : (db.entry eventId).Released) : next.entry eventId = db.entry eventId := by
  obtain ⟨event, present, status⟩ := released
  cases effect with
  | silent _ same => exact same eventId
  | insert submission fresh _ _ _ changed =>
      refine (changed eventId).trans (if_neg ?_)
      rintro rfl
      cases fresh.symm.trans present
  | settle submission entry _ _ pending _ _ _ changed =>
      refine (changed eventId).trans (if_neg ?_)
      rintro rfl
      rw [pending] at present
      obtain rfl := Option.some.inj present
      exact status rfl

/-- An attempt leaves its event released. -/
theorem Entry.Released.attempted {entry : Entry} (released : entry.Released) (ending : Ending) :
    (entry.attempted settings ending).Released := by
  obtain ⟨event, present, status⟩ := released
  unfold Entry.attempted
  split
  · next response answered =>
      refine ⟨event.withStatus (deliveredStatus ending.outcome), by rw [present]; rfl, ?_⟩
      rw [answered]
      intro pending
      have final := final_deliveredStatus response
      rw [show deliveredStatus (.response response) = .pending from pending] at final
      cases final
  · exact ⟨event, present, status⟩
  · exact ⟨event, present, status⟩

/-- The pass follows the endings that are assigned to its attempts and is not interrupted. -/
def Worker.Follows (endings : String → Ending) (worker : Worker) : Action → Prop
  | .deliver outcome now draw => ∀ delivery event, worker.held = some (delivery, event) →
      endings delivery.eventId = ⟨outcome, now, draw⟩
  | .poll _ | .crash => False
  | .arrive _ _ | .advance _ | .resume _ _ _ | .take _ | .rest => True

/-- Some deliveries of a batch have been attempted, and the others wait as they were. -/
structure Underway (settings : Settings) (endings : String → Ending) (start db : Database)
    (attempted waiting : List String) : Prop where
  attempted : ∀ eventId ∈ attempted, (endings eventId).outcome ≠ .raised ∧
    db.entry eventId = (start.entry eventId).attempted settings (endings eventId)
  waiting : ∀ eventId ∈ waiting, db.entry eventId = start.entry eventId

/-- A pass over a batch goes on, has finished, or was ended by an exception. -/
inductive Phase (settings : Settings) (endings : String → Ending) (start db : Database)
    (batch : List String) : Worker → List String → Prop where
  | passing (attempted waiting : List String) (processed : Nat)
      (whole : batch = attempted ++ waiting)
      (underway : Underway settings endings start db attempted waiting) :
      Phase settings endings start db batch (.passing waiting processed) attempted
  | calling (attempted waiting : List String) (processed : Nat) (delivery : PendingDelivery)
      (event : Event) (traceId : String) (whole : batch = attempted ++ delivery.eventId :: waiting)
      (underway : Underway settings endings start db attempted (delivery.eventId :: waiting)) :
      Phase settings endings start db batch (.calling delivery event traceId waiting processed)
        attempted
  | finished (underway : Underway settings endings start db batch []) :
      Phase settings endings start db batch .idle batch
  | aborted (attempted waiting : List String) (eventId : String)
      (whole : batch = attempted ++ eventId :: waiting)
      (raised : (endings eventId).outcome = .raised)
      (waits : db.entry eventId = start.entry eventId) :
      Phase settings endings start db batch .idle (attempted ++ [eventId])

section Phase
variable {endings : String → Ending} {start : Database} {batch attempted waiting ids : List String}

theorem Underway.frame (underway : Underway settings endings start db attempted waiting)
    (same : ∀ eventId ∈ attempted ++ waiting, next.entry eventId = db.entry eventId) :
    Underway settings endings start next attempted waiting := by
  constructor
  · intro eventId member
    rw [same eventId (List.mem_append_left _ member)]
    exact underway.attempted eventId member
  · intro eventId member
    rw [same eventId (List.mem_append_right _ member)]
    exact underway.waiting eventId member

/-- All entries of the batch stay released. -/
theorem Underway.released (underway : Underway settings endings start db attempted waiting)
    (released : ∀ eventId ∈ attempted ++ waiting, (start.entry eventId).Released) :
    ∀ eventId ∈ attempted ++ waiting, (db.entry eventId).Released := by
  intro eventId member
  have before := released eventId member
  rcases List.mem_append.mp member with done | waits
  · rw [(underway.attempted eventId done).2]
    exact before.attempted _
  · rwa [underway.waiting eventId waits]

/-- A submit does not disturb the pass. -/
theorem Phase.submit {i : Nat} {before submit : Submit}
    (phase : Phase settings endings start db batch worker ids)
    (released : ∀ eventId ∈ batch, (start.entry eventId).Released)
    (effect : Submit.Effect storage settings db next i action before submit) :
    Phase settings endings start next batch worker ids := by
  cases phase with
  | passing _ waiting processed whole underway =>
      refine .passing ids waiting processed whole (underway.frame fun eventId member => ?_)
      exact effect.released (underway.released (whole ▸ released) eventId member)
  | calling _ waiting processed delivery event traceId whole underway =>
      refine .calling ids waiting processed delivery event traceId whole
        (underway.frame fun eventId member => ?_)
      exact effect.released (underway.released (whole ▸ released) eventId member)
  | finished underway =>
      refine .finished (underway.frame fun eventId member => ?_)
      rw [List.append_nil] at member
      exact effect.released (underway.released (by rwa [List.append_nil]) eventId
        (List.mem_append_left _ member))
  | aborted attempted waiting eventId whole raised waits =>
      have own : (start.entry eventId).Released := released eventId (by simp [whole])
      exact .aborted attempted waiting eventId whole raised
        ((effect.released (waits ▸ own)).trans waits)

/-- The end of an attempt adds it to the attempted deliveries or aborts the pass. -/
theorem Underway.attempt {eventId : String} {ending : Ending}
    (underway : Underway settings endings start db attempted (eventId :: waiting))
    (distinct : (attempted ++ eventId :: waiting).Nodup) (ended : endings eventId = ending)
    (completes : ending.outcome ≠ .raised)
    (changed : ∀ other, next.entry other = if other = eventId then
      (db.entry other).attempted settings ending else db.entry other) :
    Underway settings endings start next (attempted ++ [eventId]) waiting := by
  subst ended
  obtain ⟨_, later, apart⟩ := List.nodup_append.mp distinct
  constructor
  · intro other member
    rcases List.mem_append.mp member with done | new
    · have different : other ≠ eventId := apart other done eventId List.mem_cons_self
      rw [changed, if_neg different]
      exact underway.attempted other done
    · obtain rfl := List.mem_singleton.mp new
      rw [changed, if_pos rfl, underway.waiting other List.mem_cons_self]
      exact ⟨completes, rfl⟩
  · intro other member
    have different : other ≠ eventId := by
      rintro rfl
      exact (List.nodup_cons.mp later).1 member
    rw [changed, if_neg different]
    exact underway.waiting other (List.mem_cons_of_mem _ member)

/-- The end of an attempt takes the pass on or aborts it. -/
theorem Phase.deliver {delivery : PendingDelivery} {event : Event} {traceId : String}
    {processed : Nat} {outcome : CallOutcome} {now : Rat} {draw : Draw}
    (phase : Phase settings endings start db batch
      (.calling delivery event traceId waiting processed) ids)
    (distinct : batch.Nodup) (ended : endings delivery.eventId = ⟨outcome, now, draw⟩)
    (changed : ∀ eventId, next.entry eventId = if eventId = delivery.eventId then
      (db.entry eventId).attempted settings ⟨outcome, now, draw⟩ else db.entry eventId) :
    Phase settings endings start next batch (.resumed waiting processed outcome)
      (ids ++ [delivery.eventId]) := by
  cases phase with
  | calling _ _ _ _ _ _ whole underway =>
      subst whole
      have whole : ids ++ delivery.eventId :: waiting = ids ++ [delivery.eventId] ++ waiting := by
        rw [List.append_assoc]
        rfl
      cases outcome with
      | response response =>
          exact .passing _ waiting _ whole (underway.attempt distinct ended (by simp) changed)
      | unavailable message =>
          exact .passing _ waiting _ whole (underway.attempt distinct ended (by simp) changed)
      | raised =>
          refine .aborted ids waiting delivery.eventId rfl (by rw [ended]) ?_
          rw [changed, if_pos rfl]
          exact underway.waiting _ List.mem_cons_self

/-- The worker takes the next delivery of its batch, which is still queued. -/
theorem Phase.take {fresh : String} (phase : Phase settings endings start db batch worker ids)
    (queued : ∀ eventId ∈ batch, ∃ event delivery, start.entry eventId = ⟨some event, some delivery⟩)
    (step : Worker.Step storage settings db (.take fresh) worker later next) :
    Phase settings endings start next batch later ids := by
  have head {attempted remaining : List String} {eventId : String}
      (whole : batch = attempted ++ eventId :: remaining)
      (underway : Underway settings endings start db attempted (eventId :: remaining)) :
      ∃ event delivery, db.entry eventId = ⟨some event, some delivery⟩ := by
    obtain ⟨event, delivery, entry⟩ := queued eventId (by simp [whole])
    exact ⟨event, delivery, (underway.waiting eventId List.mem_cons_self).trans entry⟩
  cases step with
  | absent _ eventId remaining processed absent =>
      cases phase with
      | passing _ _ _ whole underway =>
          obtain ⟨event, delivery, entry⟩ := head whole underway
          cases absent.symm.trans (congrArg Entry.delivery entry)
  | orphan _ eventId remaining processed delivery _ missing =>
      cases phase with
      | passing _ _ _ whole underway =>
          obtain ⟨event, delivery, entry⟩ := head whole underway
          cases missing.symm.trans (congrArg Entry.event entry)
  | call _ eventId remaining processed delivery event found stored =>
      obtain rfl : delivery.eventId = eventId := Table.key_of_get found
      cases phase with
      | passing _ _ _ whole underway =>
          exact .calling ids remaining processed delivery event _ whole underway

/-- A step of the worker takes the pass to its next phase. -/
theorem Phase.work (phase : Phase settings endings start db batch worker ids)
    (distinct : batch.Nodup)
    (queued : ∀ eventId ∈ batch, ∃ event delivery, start.entry eventId = ⟨some event, some delivery⟩)
    (step : Worker.Step storage settings db action worker later next)
    (valid : ∀ eventId, (db.entry eventId).Valid)
    (current : worker.Current db)
    (follows : worker.Follows endings action) :
    Phase settings endings start next batch later
      (ids ++ ((worker.attempt action).map PendingDelivery.eventId).toList) := by
  cases action with
  | deliver outcome now draw =>
      obtain ⟨delivery, event, traceId, waiting, processed, rfl, rfl, changed⟩ :=
        step.attempted valid current
      exact phase.deliver distinct (follows delivery event rfl) changed
  | take fresh =>
      show Phase _ _ _ _ _ _ (ids ++ [])
      rw [List.append_nil]
      exact phase.take queued step
  | rest =>
      show Phase _ _ _ _ _ _ (ids ++ [])
      rw [List.append_nil]
      cases step with
      | rest processed =>
          cases phase with
          | passing _ _ _ whole underway =>
              rw [List.append_nil] at whole
              subst whole
              exact .finished underway
  | poll | crash => cases follows
  | arrive | advance | resume => cases step

end Phase

section Due
variable {deliveries : Table PendingDelivery.eventId} {limit : Int} {now : Rat}

/-- The due event ids are those of some due deliveries in their order. -/
theorem dueEventIds_sublist : (dueEventIds deliveries limit now).Sublist
    (((deliveries.rows.filter fun row => decide (row.nextAttemptAt ≤ now)).insertionSort
      PendingDelivery.before).map PendingDelivery.eventId) := by
  unfold dueEventIds
  apply List.Sublist.map
  split
  · exact List.Sublist.refl _
  · exact List.take_sublist _ _

theorem dueEventIds_nodup : (dueEventIds deliveries limit now).Nodup := by
  refine List.Nodup.sublist dueEventIds_sublist ?_
  refine ((List.perm_insertionSort _ _).map _).nodup_iff.mpr ?_
  exact List.Nodup.sublist (List.filter_sublist.map _) deliveries.unique

/-- Every due event id has a delivery whose time has come. -/
theorem delivery_of_due {eventId : String} (member : eventId ∈ dueEventIds deliveries limit now) :
    ∃ delivery, deliveries.get eventId = some delivery ∧ delivery.nextAttemptAt ≤ now := by
  obtain ⟨delivery, sorted, rfl⟩ := List.mem_map.mp (dueEventIds_sublist.subset member)
  obtain ⟨stored, due⟩ :=
    List.mem_filter.mp ((List.perm_insertionSort _ _).mem_iff.mp sorted)
  exact ⟨delivery, Table.get_of_mem stored, of_decide_eq_true due⟩

end Due

/-- A pass takes this batch from the queue. -/
def Process.batch (settings : Settings) (process : Process) (now : Rat) : List String :=
  dueEventIds process.db.deliveries settings.asyncFallbackBatchSize now

/-- A poll of an idle worker starts a pass over its batch. -/
theorem Process.poll_eq_some {now : Rat} :
    process.step storage settings (.poll now) = some after ↔
      process.worker = .idle ∧ settings.asyncFallbackEnabled ∧
        after = { process with worker := .passing (process.batch settings now) 0 } := by
  cases awaits : process.worker with
  | idle =>
      simp only [step, awaits, batch, Option.ite_none_right_eq_some, Option.some.injEq, true_and]
      rw [eq_comm (a := after)]
  | passing | calling => simp [step, awaits]

/-- A pass follows its endings until the worker is idle again. -/
structure Pass (storage : Storage) (settings : Settings) (endings : String → Ending) (now : Rat)
    (first last : Process) (trace : Trace Process Action) : Prop where
  begins : ∃ started, first.step storage settings (.poll now) = some started ∧
    (gateway storage settings).Runs started last trace
  follows : ∀ transition ∈ trace, transition.before.worker.Follows endings transition.action
  ends : last.worker = .idle

section Run
variable {endings : String → Ending} {first last : Process} {trace : Trace Process Action}
  {now : Rat}

/-- Every due delivery of a reachable state belongs to a queued event. -/
theorem queued_of_due (reached : (gateway storage settings).Reachable first) {eventId : String}
    (due : eventId ∈ first.batch settings now) :
    ∃ event delivery, first.db.entry eventId = ⟨some event, some delivery⟩ ∧
      event.processingStatus = .queued := by
  obtain ⟨delivery, waits, _⟩ := delivery_of_due due
  obtain ⟨event, present, queued⟩ := ((consistent_of_reachable reached).valid eventId).mp
    (by rw [Database.entry, waits]; rfl)
  exact ⟨event, delivery, Entry.ext present waits, queued⟩

/-- A run of a pass is in one of its phases. -/
theorem phase_of_runs (reached : (gateway storage settings).Reachable first)
    {started : Process} (polled : first.step storage settings (.poll now) = some started)
    (runs : (gateway storage settings).Runs started last trace)
    (follows : ∀ transition ∈ trace, transition.before.worker.Follows endings transition.action) :
    Phase settings endings first.db last.db (first.batch settings now) last.worker
      ((attempts trace).map PendingDelivery.eventId) := by
  induction runs with
  | refl =>
      obtain ⟨_, _, rfl⟩ := Process.poll_eq_some.mp polled
      exact .passing [] _ 0 rfl ⟨fun _ member => (by cases member), fun _ _ => rfl⟩
  | @step state next trace action earlier taken ih =>
      have phase := ih fun transition member => follows transition (List.mem_append_left _ member)
      have followed : state.worker.Follows endings action :=
        follows _ (List.mem_append_right trace List.mem_cons_self)
      have consistent := consistent_of_reachable (earlier.reachable (reached.step (.poll now) polled))
      rw [attempts_append, List.map_append, ← Option.toList_map]
      rcases Process.step_cases taken with ⟨i, submit, step, _, worker⟩ | ⟨step, _⟩ | ⟨rfl, _⟩
      · rw [Worker.attempt_of_call step.call_eq, worker, Option.map_none, Option.toList_none,
          List.append_nil]
        refine phase.submit (fun eventId due => ?_) (step.effect (consistent.owns i))
        obtain ⟨event, delivery, entry, queued⟩ := queued_of_due reached due
        exact ⟨event, by rw [entry], by rw [queued]; decide⟩
      · refine phase.work dueEventIds_nodup (fun eventId due => ?_) step consistent.valid
          consistent.current followed
        obtain ⟨event, delivery, entry, _⟩ := queued_of_due reached due
        exact ⟨event, delivery, entry⟩
      · cases followed

/-- This number of steps is left to the worker in its pass. -/
def Worker.left : Worker → Nat
  | .idle => 0
  | .passing remaining _ => 2 * remaining.length + 1
  | .calling _ _ _ remaining _ => 2 * remaining.length + 2

/-- The worker takes the next event id, whatever it finds. -/
theorem Worker.take_left (storage : Storage) (db : Database) (fresh eventId : String)
    (remaining : List String) (processed : Nat) :
    ∃ taken, (Worker.passing (eventId :: remaining) processed).take storage db fresh = some taken ∧
      taken.1.left < (Worker.passing (eventId :: remaining) processed).left := by
  have fewer : (Worker.passing remaining processed).left <
      (Worker.passing (eventId :: remaining) processed).left := by
    simp only [left, List.length_cons]
    omega
  simp only [take]
  split
  · exact ⟨_, rfl, fewer⟩
  · split
    · exact ⟨_, rfl, fewer⟩
    · exact ⟨_, rfl, Nat.succ_pos _⟩
  · next delivery event _ =>
      refine ⟨_, rfl, ?_⟩
      simp only [left, List.length_cons]
      omega

/-- The worker goes on after its await, however it ends. -/
theorem Worker.deliver_left (storage : Storage) (settings : Settings) (db : Database)
    (ending : Ending) (delivery : PendingDelivery) (event : Event) (traceId : String)
    (remaining : List String) (processed : Nat) :
    ∃ delivered, (Worker.calling delivery event traceId remaining processed).deliver storage settings
        db ending.outcome ending.now ending.draw = some delivered ∧
      delivered.1.left < (Worker.calling delivery event traceId remaining processed).left := by
  simp only [deliver]
  split
  · split
    · exact ⟨_, rfl, by simp only [left]; omega⟩
    · exact ⟨_, rfl, Nat.succ_pos _⟩
  · exact ⟨_, rfl, Nat.succ_pos _⟩

/-- The worker is never stuck within its pass. -/
theorem Process.progress (storage : Storage) (settings : Settings) (endings : String → Ending)
    (process : Process) (busy : process.worker ≠ .idle) :
    ∃ action after, process.step storage settings action = some after ∧ action.call = none ∧
      process.worker.Follows endings action ∧ after.worker.left < process.worker.left := by
  obtain ⟨db, submits, worker⟩ := process
  match worker with
  | .idle => exact absurd rfl busy
  | .passing [] processed =>
      exact ⟨.rest, ⟨db, submits, .idle⟩, rfl, rfl, trivial, Nat.succ_pos _⟩
  | .passing (eventId :: remaining) processed =>
      obtain ⟨taken, took, fewer⟩ := Worker.take_left storage db "" eventId remaining processed
      exact ⟨.take "", ⟨taken.2, submits, taken.1⟩, by simp only [step, took]; rfl, rfl, trivial,
        fewer⟩
  | .calling delivery event traceId remaining processed =>
      let ending := endings delivery.eventId
      obtain ⟨delivered, done, fewer⟩ := Worker.deliver_left storage settings db ending delivery
        event traceId remaining processed
      refine ⟨.deliver ending.outcome ending.now ending.draw, ⟨delivered.2, submits, delivered.1⟩,
        by simp only [step, done]; rfl, rfl, fun other held same => ?_, fewer⟩
      obtain ⟨rfl, _⟩ := Prod.mk.inj (Option.some.inj same)
      rfl

/-- The worker can finish its pass by its own steps. -/
theorem finishes (endings : String → Ending)
    (runs : (gateway storage settings).Runs first process trace) :
    ∃ last rest, (gateway storage settings).Runs first last (trace ++ rest) ∧
      (∀ transition ∈ rest, transition.action.call = none ∧
        transition.before.worker.Follows endings transition.action) ∧ last.worker = .idle := by
  induction left : process.worker.left using Nat.strong_induction_on generalizing process trace with
  | _ left ih =>
      by_cases idle : process.worker = .idle
      · exact ⟨process, [], by rwa [List.append_nil], fun _ member => (by cases member), idle⟩
      · obtain ⟨action, after, taken, own, followed, fewer⟩ :=
          process.progress storage settings endings idle
        obtain ⟨last, rest, finished, follows, ends⟩ :=
          ih _ (left ▸ fewer) (runs.step action taken) rfl
        refine ⟨last, ⟨process, action, after⟩ :: rest, ?_, ?_, ends⟩
        · rwa [List.append_assoc] at finished
        · exact List.forall_mem_cons.mpr ⟨⟨own, followed⟩, follows⟩

/-- A pass of an idle worker ends. -/
theorem exists_pass (enabled : settings.asyncFallbackEnabled) (idle : first.worker = .idle)
    (endings : String → Ending) (now : Rat) :
    ∃ last trace, Pass storage settings endings now first last trace := by
  let started := { first with worker := .passing (first.batch settings now) 0 }
  have polled : first.step storage settings (.poll now) = some started :=
    Process.poll_eq_some.mpr ⟨idle, enabled, rfl⟩
  have nothing : (gateway storage settings).Runs started started [] := .refl
  obtain ⟨last, trace, runs, follows, ends⟩ := finishes endings nothing
  exact ⟨last, trace, ⟨started, polled, runs⟩,
    fun transition member => (follows transition member).2, ends⟩

/-- A pass attempts its whole batch, or an exception aborts it and the rest of the batch waits. -/
theorem Pass.cases (pass : Pass storage settings endings now first last trace)
    (reached : (gateway storage settings).Reachable first) :
    ((attempts trace).map PendingDelivery.eventId = first.batch settings now ∧
      ∀ eventId ∈ first.batch settings now, (endings eventId).outcome ≠ .raised ∧
        last.db.entry eventId = (first.db.entry eventId).attempted settings (endings eventId)) ∨
      ∃ attempted eventId waiting, first.batch settings now = attempted ++ eventId :: waiting ∧
        (attempts trace).map PendingDelivery.eventId = attempted ++ [eventId] ∧
        (endings eventId).outcome = .raised ∧
        last.db.entry eventId = (first.db.entry eventId).attempted settings (endings eventId) := by
  obtain ⟨⟨started, polled, runs⟩, follows, ends⟩ := pass
  have phase := phase_of_runs reached polled runs follows
  generalize (attempts trace).map PendingDelivery.eventId = ids at phase ⊢
  rw [ends] at phase
  cases phase with
  | finished underway => exact .inl ⟨rfl, underway.attempted⟩
  | aborted attempted waiting eventId whole raised waits =>
      refine .inr ⟨attempted, eventId, waiting, whole, rfl, raised, ?_⟩
      rw [waits, Entry.attempted, raised]

/-- An attempted delivery is removed with its event settled, or it is rescheduled strictly later with
one more attempt. -/
inductive Entry.Treated (before : Entry) : Entry → Prop where
  | removed (event : Event) (settled : event.processingStatus.final) :
      before.Treated ⟨some event, none⟩
  | rescheduled (event : Event) (delivery later : PendingDelivery)
      (waits : before.delivery = some delivery)
      (counted : later.attemptCount = delivery.attemptCount + 1)
      (postponed : delivery.nextAttemptAt < later.nextAttemptAt) :
      before.Treated ⟨some event, some later⟩

/-- Every pass attempts its whole batch once and in order, and treats each of its deliveries. -/
structure AttemptsBatch (storage : Storage) (settings : Settings) (endings : String → Ending)
    (now : Rat) (process : Process) : Prop where
  ends : ∃ last trace, Pass storage settings endings now process last trace
  once : ∀ last trace, Pass storage settings endings now process last trace →
    (attempts trace).map PendingDelivery.eventId = process.batch settings now
  treats : ∀ last trace, Pass storage settings endings now process last trace →
    ∀ eventId ∈ process.batch settings now,
      (process.db.entry eventId).Treated (last.db.entry eventId)

/-- An attempt completes when no exception escapes from it and its backoff ends after the time at
which the delivery was due. -/
def Ending.Completes (settings : Settings) (ending : Ending) (delivery : PendingDelivery) : Prop :=
  match ending.outcome with
  | .response _ => True
  | .unavailable _ => delivery.nextAttemptAt <
      ending.now + backoffSeconds settings (delivery.attemptCount + 1) ending.draw
  | .raised => False

/-- The entry of a queued event is treated exactly when its attempt completes. -/
theorem Entry.treated_attempted_iff (ending : Ending) (event : Event) (delivery : PendingDelivery) :
    (Entry.mk (some event) (some delivery)).Treated
        ((Entry.mk (some event) (some delivery)).attempted settings ending) ↔
      ending.Completes settings delivery := by
  unfold attempted Ending.Completes
  split
  · next response answered =>
      refine ⟨fun _ => trivial, fun _ => .removed (event.withStatus _) ?_⟩
      rw [answered]
      exact final_deliveredStatus response
  · constructor
    · intro treated
      cases treated with
      | rescheduled _ other _ waits _ postponed =>
          obtain rfl := Option.some.inj waits
          exact postponed
    · exact fun postponed => .rescheduled event delivery _ rfl rfl postponed
  · refine ⟨fun treated => ?_, False.elim⟩
    cases treated with
    | rescheduled _ other _ waits counted =>
        obtain rfl := Option.some.inj waits
        omega

theorem Ending.not_completes {ending : Ending} (raised : ending.outcome = .raised)
    (delivery : PendingDelivery) : ¬ ending.Completes settings delivery := by
  rw [Completes, raised]
  exact not_false

/-- Positive backoffs and a clock that does not go back let every other attempt complete. -/
theorem Ending.completes_iff {ending : Ending} {delivery : PendingDelivery}
    (base : 0 < settings.asyncFallbackBaseBackoffSeconds)
    (bound : 0 < settings.asyncFallbackMaxBackoffSeconds)
    (jitter : 0 ≤ settings.asyncFallbackJitterSeconds)
    (due : delivery.nextAttemptAt ≤ now) (clock : now ≤ ending.now) :
    ending.Completes settings delivery ↔ ending.outcome ≠ .raised := by
  have backoff (attemptCount : Nat) : 0 < backoffSeconds settings attemptCount ending.draw := by
    have first : 0 < min (settings.asyncFallbackBaseBackoffSeconds *
        2 ^ min (attemptCount - 1) 16) settings.asyncFallbackMaxBackoffSeconds :=
      lt_min (mul_pos base (pow_pos two_pos _)) bound
    have second : 0 ≤ settings.asyncFallbackJitterSeconds * ending.draw.val :=
      mul_nonneg jitter ending.draw.property.1
    exact add_pos_of_pos_of_nonneg first second
  unfold Completes
  split
  · next answered => simp [answered]
  · next unavailable =>
      have later := backoff (delivery.attemptCount + 1)
      rw [unavailable]
      exact ⟨fun _ => by simp, fun _ => by linarith⟩
  · next raised => simp [raised]

section Batch
variable {eventId : String} (reached : (gateway storage settings).Reachable first)
  (due : eventId ∈ first.batch settings now)
  (changed : last.db.entry eventId =
    (first.db.entry eventId).attempted settings (endings eventId))
include reached due changed

/-- A delivery of the batch is treated exactly when its attempt completes. -/
theorem treated_iff : (first.db.entry eventId).Treated (last.db.entry eventId) ↔
    ∀ delivery, first.db.deliveries.get eventId = some delivery →
      (endings eventId).Completes settings delivery := by
  obtain ⟨event, delivery, entry, _⟩ := queued_of_due reached due
  have waits : first.db.deliveries.get eventId = some delivery := congrArg Entry.delivery entry
  rw [changed, entry, Entry.treated_attempted_iff, waits]
  constructor
  · intro completes other same
    exact Option.some.inj same ▸ completes
  · exact fun all => all delivery rfl

/-- A delivery from whose attempt an exception escapes is not treated. -/
theorem not_treated (raised : (endings eventId).outcome = .raised) :
    ¬ (first.db.entry eventId).Treated (last.db.entry eventId) := by
  obtain ⟨event, delivery, entry, _⟩ := queued_of_due reached due
  rw [treated_iff reached due changed]
  exact fun all => Ending.not_completes raised delivery (all delivery (congrArg Entry.delivery entry))

end Batch

/-- A pass attempts its whole batch exactly when every attempt completes. -/
theorem batch_attempted_iff {process : Process} (enabled : settings.asyncFallbackEnabled)
    (reached : (gateway storage settings).Reachable process) (idle : process.worker = .idle)
    (endings : String → Ending) (now : Rat) :
    AttemptsBatch storage settings endings now process ↔
      ∀ eventId ∈ process.batch settings now, ∀ delivery,
        process.db.deliveries.get eventId = some delivery →
          (endings eventId).Completes settings delivery := by
  constructor
  · intro ⟨⟨last, trace, pass⟩, _, treats⟩ eventId due
    rcases pass.cases reached with ⟨_, treated⟩ | ⟨_, other, _, whole, _, raised, changed⟩
    · exact (treated_iff reached due (treated eventId due).2).mp (treats last trace pass eventId due)
    · have inBatch : other ∈ process.batch settings now := by simp [whole]
      exact absurd (treats last trace pass other inBatch)
        (not_treated reached inBatch changed raised)
  · intro completes
    have finished (last : Process) (trace : Trace Process Action)
        (pass : Pass storage settings endings now process last trace) :
        (attempts trace).map PendingDelivery.eventId = process.batch settings now ∧
          ∀ eventId ∈ process.batch settings now, last.db.entry eventId =
            (process.db.entry eventId).attempted settings (endings eventId) := by
      rcases pass.cases reached with ⟨once, treated⟩ | ⟨_, other, _, whole, _, raised, _⟩
      · exact ⟨once, fun eventId due => (treated eventId due).2⟩
      · have inBatch : other ∈ process.batch settings now := by simp [whole]
        obtain ⟨event, delivery, entry, _⟩ := queued_of_due reached inBatch
        exact absurd (completes other inBatch delivery (congrArg Entry.delivery entry))
          (Ending.not_completes raised delivery)
    refine ⟨exists_pass enabled idle endings now, fun last trace pass => (finished last trace pass).1,
      fun last trace pass eventId due => ?_⟩
    exact (treated_iff reached due ((finished last trace pass).2 eventId due)).mpr
      (completes eventId due)

end Run

section Examples

/-- Two submits find the service unavailable, and their events are queued. -/
def twoQueued : List Action :=
  [.arrive 0 ⟨creditX.event, "trace"⟩, .advance 0, .advance 0, .advance 0,
    .resume 0 (.unavailable "timeout") 0,
    .arrive 1 ⟨creditY.event, "trace"⟩, .advance 1, .advance 1, .advance 1,
    .resume 1 (.unavailable "timeout") 0]

theorem run_twoQueued : ∃ process,
    (gateway .wallClock .default).run (gateway .wallClock .default).initial twoQueued = some process ∧
      process.worker = .idle ∧ process.batch .default 0 = ["x", "y"] := by
  obtain ⟨process, ran, observed⟩ := Option.map_eq_some_iff.mp
    (show ((gateway .wallClock .default).run (gateway .wallClock .default).initial twoQueued).map
      (fun process => (process.worker, process.batch .default 0)) = some (.idle, ["x", "y"]) by rfl)
  obtain ⟨idle, batch⟩ := Prod.mk.inj observed
  exact ⟨process, ran, idle, batch⟩

/-- The first delivery is unavailable, and the second one is rejected. -/
def unavailableThenRejected (eventId : String) : Ending where
  outcome := if eventId = "x" then .unavailable "timeout"
    else .response ⟨409, "application/json", some "", none⟩
  now := 0
  draw := .zero

theorem batch_attempted_unavailable : ∃ process,
    (gateway .wallClock .default).run (gateway .wallClock .default).initial twoQueued = some process ∧
      process.batch .default 0 = ["x", "y"] ∧
      AttemptsBatch .wallClock .default unavailableThenRejected 0 process := by
  obtain ⟨process, ran, idle, batch⟩ := run_twoQueued
  refine ⟨process, ran, batch, (batch_attempted_iff rfl (Machine.reachable_of_run _ .initial ran)
    idle unavailableThenRejected 0).mpr fun eventId due delivery waits => ?_⟩
  obtain ⟨other, same, low⟩ := delivery_of_due due
  obtain rfl := Option.some.inj (waits.symm.trans same)
  refine (Ending.completes_iff (by decide +kernel) (by decide +kernel) (by decide +kernel) low
    le_rfl).mpr ?_
  unfold unavailableThenRejected
  split <;> simp

/-- The client lets an exception through on the first delivery only. -/
def raisedFirst (eventId : String) : Ending where
  outcome := if eventId = "x" then .raised else .response ⟨201, "application/json", some "", none⟩
  now := 0
  draw := .zero

theorem raised_delivery_aborts : ∃ process,
    (gateway .wallClock .default).run (gateway .wallClock .default).initial twoQueued = some process ∧
      process.batch .default 0 = ["x", "y"] ∧
      (∀ last trace, Pass .wallClock .default raisedFirst 0 process last trace →
        (attempts trace).map PendingDelivery.eventId = ["x"]) ∧
      ¬ AttemptsBatch .wallClock .default raisedFirst 0 process := by
  obtain ⟨process, ran, idle, batch⟩ := run_twoQueued
  have aborted (last : Process) (trace : Trace Process Action)
      (pass : Pass .wallClock .default raisedFirst 0 process last trace) :
      (attempts trace).map PendingDelivery.eventId = ["x"] := by
    rcases pass.cases (Machine.reachable_of_run _ .initial ran) with
      ⟨_, treated⟩ | ⟨attempted, eventId, waiting, whole, once, raised, _⟩
    · exact absurd rfl (treated "x" (by simp [batch])).1
    · obtain rfl : eventId = "x" := by
        by_contra other
        rw [raisedFirst, if_neg other] at raised
        cases raised
      cases attempted with
      | nil => exact once
      | cons head rest =>
          rw [batch, List.cons_append, List.cons.injEq] at whole
          have later : "x" ∈ ["y"] := whole.2 ▸ List.mem_append_right rest List.mem_cons_self
          simp at later
  refine ⟨process, ran, batch, aborted, fun attempted => ?_⟩
  obtain ⟨last, trace, pass⟩ := attempted.ends
  have once := attempted.once last trace pass
  rw [aborted last trace pass, batch] at once
  simp at once

end Examples
end EventLedger.EventGateway
