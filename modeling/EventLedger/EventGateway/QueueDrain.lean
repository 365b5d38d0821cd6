import EventLedger.EventGateway.Passes
import EventLedger.Library.Ordering
import Mathlib.Data.Rat.Floor
import Mathlib.Data.String.Basic

namespace EventLedger.EventGateway
open Library Python

variable {storage : Storage} {settings : Settings} {db next : Database} {process after : Process}
  {action : Action} {worker later : Worker}

/-- Deliveries fall due by their time and then by their event id. -/
def PendingDelivery.dueKey (delivery : PendingDelivery) : Rat ×ₗ String :=
  toLex (delivery.nextAttemptAt, delivery.eventId)

theorem PendingDelivery.before_iff (first second : PendingDelivery) :
    first.before second ↔ first.dueKey ≤ second.dueKey := by
  simp only [before, dueKey, Prod.Lex.toLex_le_toLex]

theorem dueKeys_nodup (deliveries : Table PendingDelivery.eventId) :
    (deliveries.rows.map PendingDelivery.dueKey).Nodup := by
  refine List.Nodup.of_map (fun key : Rat ×ₗ String => (ofLex key).2) ?_
  rw [List.map_map]
  exact deliveries.unique

/-- When all deliveries are due, the batch is the first part of the ordered queue. -/
theorem dueEventIds_of_due {deliveries : Table PendingDelivery.eventId} {limit : Int} {now : Rat}
    {queue : List PendingDelivery} (positive : 1 ≤ limit)
    (due : ∀ delivery ∈ deliveries.rows, delivery.nextAttemptAt ≤ now)
    (ordered : Ordered PendingDelivery.dueKey deliveries.rows queue) :
    dueEventIds deliveries limit now =
      (queue.take limit.toNat).map PendingDelivery.eventId := by
  have all : (deliveries.rows.filter fun row => decide (row.nextAttemptAt ≤ now)) =
      deliveries.rows :=
    List.filter_eq_self.mpr fun delivery member => decide_eq_true (due delivery member)
  have sorted : Ordered PendingDelivery.dueKey deliveries.rows
      (deliveries.rows.insertionSort PendingDelivery.before) := by
    have total : Std.Total PendingDelivery.before :=
      ⟨fun a b => by simp only [PendingDelivery.before_iff]; exact le_total _ _⟩
    have trans : IsTrans PendingDelivery PendingDelivery.before :=
      ⟨fun a b c => by simp only [PendingDelivery.before_iff]; exact le_trans⟩
    exact ⟨List.perm_insertionSort _ _,
      (List.pairwise_insertionSort _ _).imp fun {a b} => (PendingDelivery.before_iff a b).mp⟩
  simp only [dueEventIds, all, if_neg (show ¬ limit < 0 by omega)]
  rw [sorted.unique (dueKeys_nodup deliveries) ordered]

/-- The worker is answered below 400, nothing new is enqueued, and each pass starts when all
deliveries are due. -/
def Database.Answering (db : Database) : Action → Prop
  | .deliver outcome _ _ => ∃ response, outcome = .response response ∧ response.statusCode < 400
  | .resume _ outcome _ => ∀ message, outcome ≠ .unavailable message
  | .poll now => ∀ delivery ∈ db.deliveries.rows, delivery.nextAttemptAt ≤ now
  | .crash => False
  | .arrive _ _ | .advance _ | .take _ | .rest => True

/-- A pass returns the number of deliveries that it processed. -/
def Worker.returned (worker : Worker) : Action → Option Nat
  | .rest => match worker with
      | .passing [] processed => some processed
      | _ => none
  | .arrive _ _ | .advance _ | .resume _ _ _ | .poll _ | .take _ | .deliver _ _ _ | .crash => none

def returned (trace : Trace Process Action) : List Nat :=
  trace.filterMap fun transition => transition.before.worker.returned transition.action

def Action.polls : Action → Bool
  | .poll _ => true
  | .arrive _ _ | .advance _ | .resume _ _ _ | .take _ | .deliver _ _ _ | .rest | .crash => false

/-- Each pass starts with a poll. -/
def passes (trace : Trace Process Action) : Nat :=
  trace.countP fun transition => transition.action.polls

/-- The queue is empty, all its deliveries were sent once in their order, their events are applied,
the worker changed no other entry, and the passes returned their number. -/
structure Drained (first last : Database) (trace : Trace Process Action) : Prop where
  empty : last.deliveries.rows = []
  sent : Ordered PendingDelivery.dueKey first.deliveries.rows (attempts trace)
  applied : ∀ delivery ∈ first.deliveries.rows, ∃ event,
    first.events.get delivery.eventId = some event ∧
      last.entry delivery.eventId = ⟨some (event.withStatus .applied), none⟩
  others : ∀ transition ∈ trace, transition.action.call = none →
    ∀ eventId, first.deliveries.get eventId = none →
      transition.after.db.entry eventId = transition.before.db.entry eventId
  unchanged : (∀ transition ∈ trace, transition.action.call = none) →
    ∀ eventId, first.deliveries.get eventId = none → last.entry eventId = first.entry eventId
  returned : (returned trace).sum = first.deliveries.rows.length

/-- The first deliveries of a queue have been sent, and the rest of it waits. -/
structure Sending (start db : Database) (sent rest : List PendingDelivery) : Prop where
  rows : db.deliveries.rows.Perm rest
  applied : ∀ delivery ∈ sent, ∃ event, start.events.get delivery.eventId = some event ∧
    db.entry delivery.eventId = ⟨some (event.withStatus .applied), none⟩
  waiting : ∀ delivery ∈ rest, db.events.get delivery.eventId = start.events.get delivery.eventId

/-- After a number of passes the worker has sent the first deliveries of the queue, up to the size of
a batch in each pass. -/
inductive Draining (size : Nat) (start db : Database) (queue : List PendingDelivery)
    (passes : Nat) : Worker → List PendingDelivery → Nat → Prop where
  | idle (sent rest : List PendingDelivery) (total : Nat) (whole : queue = sent ++ rest)
      (sending : Sending start db sent rest)
      (count : sent.length = min queue.length (passes * size)) (sum : total = sent.length) :
      Draining size start db queue passes .idle sent total
  | passing (sent batch rest : List PendingDelivery) (remaining : List String)
      (processed total : Nat) (whole : queue = sent ++ (batch ++ rest))
      (ids : remaining = batch.map PendingDelivery.eventId)
      (sending : Sending start db sent (batch ++ rest))
      (count : sent.length + batch.length = min queue.length (passes * size))
      (sum : total + processed = sent.length) :
      Draining size start db queue passes (.passing remaining processed) sent total
  | calling (sent batch rest : List PendingDelivery) (delivery : PendingDelivery) (event : Event)
      (traceId : String) (remaining : List String) (processed total : Nat)
      (whole : queue = sent ++ delivery :: (batch ++ rest))
      (ids : remaining = batch.map PendingDelivery.eventId)
      (sending : Sending start db sent (delivery :: (batch ++ rest)))
      (count : sent.length + batch.length + 1 = min queue.length (passes * size))
      (sum : total + processed = sent.length) :
      Draining size start db queue passes (.calling delivery event traceId remaining processed)
        sent total

section Frames

/-- A submit that is not queued leaves the queue as it was. -/
theorem Submit.Step.deliveries {i : Nat} {before submit : Submit}
    (step : Submit.Step storage settings db i action before submit next)
    (answering : db.Answering action) : next.deliveries = db.deliveries := by
  have kept {work : Work} (silent : work.delivery = none)
      (committed : db.commit storage work = some next) : next.deliveries = db.deliveries := by
    obtain ⟨_, deliveries, _⟩ := Database.commit_eq_some committed
    rw [silent] at deliveries
    exact (Option.some.inj deliveries).symm
  cases step with
  | arrive | lookup | rollback | relookup | stale | raise => rfl
  | insert _ committed | call _ _ committed | record _ _ committed => exact kept rfl committed
  | settle submission event outcome now settled committed =>
      refine kept ?_ committed
      cases Submission.settles settled with
      | rejected | applied => rfl
      | queued message | failed message => exact absurd rfl (answering message)

/-- The worker changes no entry but that of the event that it holds. -/
theorem Worker.Step.others (step : Worker.Step storage settings db action worker later next)
    (valid : ∀ eventId, (db.entry eventId).Valid)
    (current : worker.Current db)
    {eventId : String}
    (other : ∀ delivery event, worker.held = some (delivery, event) → delivery.eventId ≠ eventId) :
    next.entry eventId = db.entry eventId := by
  cases step.effect valid current with
  | silent _ same | call _ _ _ _ same => exact same eventId
  | deliver delivery event entry earlier _ _ _ _ _ changed =>
      have own := (current delivery event earlier).1
      refine (changed eventId).trans (if_neg ?_)
      rintro rfl
      exact other delivery event earlier own

end Frames

section Steps
variable {start : Database} {queue sent rest : List PendingDelivery} {size passes total : Nat}

theorem Sending.frame (sending : Sending start db sent rest)
    (deliveries : next.deliveries = db.deliveries)
    (same : ∀ delivery ∈ sent ++ rest,
      next.entry delivery.eventId = db.entry delivery.eventId) :
    Sending start next sent rest where
  rows := by
    rw [deliveries]
    exact sending.rows
  applied delivery member := by
    rw [same delivery (List.mem_append_left _ member)]
    exact sending.applied delivery member
  waiting delivery member := by
    have kept := congrArg Entry.event (same delivery (List.mem_append_right _ member))
    exact kept.trans (sending.waiting delivery member)

/-- All events of the queue stay released. -/
theorem Sending.released (sending : Sending start db sent rest)
    (queued : ∀ delivery ∈ sent ++ rest, (start.entry delivery.eventId).Released) :
    ∀ delivery ∈ sent ++ rest, (db.entry delivery.eventId).Released := by
  intro delivery member
  rcases List.mem_append.mp member with done | waits
  · obtain ⟨event, _, applied⟩ := sending.applied delivery done
    exact ⟨event.withStatus .applied, by rw [applied], by simp [Event.withStatus]⟩
  · obtain ⟨event, present, status⟩ := queued delivery member
    exact ⟨event, (sending.waiting delivery waits).trans present, status⟩

/-- A submit that enqueues nothing does not disturb the passes. -/
theorem Draining.submit {i : Nat} {before submit : Submit}
    (draining : Draining size start db queue passes worker sent total)
    (queued : ∀ delivery ∈ queue, (start.entry delivery.eventId).Released)
    (step : Submit.Step storage settings db i action before submit next)
    (owns : before.Owns storage db)
    (answering : db.Answering action) :
    Draining size start next queue passes worker sent total := by
  have frame {rest : List PendingDelivery} (whole : queue = sent ++ rest)
      (sending : Sending start db sent rest) : Sending start next sent rest :=
    sending.frame (step.deliveries answering) fun delivery member =>
      (step.effect owns).released (sending.released (whole ▸ queued) delivery member)
  cases draining with
  | idle _ rest _ whole sending count sum =>
      exact .idle sent rest total whole (frame whole sending) count sum
  | passing _ batch rest remaining processed _ whole ids sending count sum =>
      exact .passing sent batch rest remaining processed total whole ids (frame whole sending) count
        sum
  | calling _ batch rest delivery event traceId remaining processed _ whole ids sending count sum =>
      exact .calling sent batch rest delivery event traceId remaining processed total whole ids
        (frame whole sending) count sum

/-- A poll takes the next batch of the queue. -/
theorem Draining.poll {now : Rat} (draining : Draining size start db queue passes .idle sent total)
    (positive : 1 ≤ settings.asyncFallbackBatchSize)
    (batched : size = settings.asyncFallbackBatchSize.toNat)
    (ordered : queue.Pairwise fun a b => a.dueKey ≤ b.dueKey)
    (due : ∀ delivery ∈ db.deliveries.rows, delivery.nextAttemptAt ≤ now) :
    Draining size start db queue (passes + 1)
      (.passing (dueEventIds db.deliveries settings.asyncFallbackBatchSize now) 0) sent total := by
  cases draining with
  | idle _ rest _ whole sending count sum =>
      have later : Ordered PendingDelivery.dueKey db.deliveries.rows rest :=
        ⟨sending.rows.symm, (List.pairwise_append.mp (whole ▸ ordered)).2.1⟩
      have split : rest.take size ++ rest.drop size = rest := List.take_append_drop size rest
      refine .passing sent (rest.take size) (rest.drop size) _ 0 total (by rw [split, whole]) ?_
        (by rwa [split]) ?_ sum
      · rw [batched]
        exact dueEventIds_of_due positive due later
      · rw [whole, List.length_append] at count ⊢
        rw [List.length_take, Nat.succ_mul]
        omega

/-- A delivered payload leaves the queue, and its event is applied. -/
theorem Sending.deliver {delivery : PendingDelivery} {event : Event} {response : Response}
    {now : Rat} {draw : Draw} (sending : Sending start db sent (delivery :: rest))
    (distinct : ((sent ++ delivery :: rest).map PendingDelivery.eventId).Nodup)
    (current : db.entry delivery.eventId = ⟨some event, some delivery⟩)
    (accepted : response.statusCode < 400)
    (changed : ∀ eventId, next.entry eventId = if eventId = delivery.eventId then
      (db.entry eventId).attempted settings ⟨.response response, now, draw⟩
      else db.entry eventId) :
    Sending start next (sent ++ [delivery]) rest := by
  rw [List.map_append, List.map_cons, List.nodup_append, List.nodup_cons] at distinct
  obtain ⟨_, ⟨fresh, _⟩, apart⟩ := distinct
  have sentBefore {other : PendingDelivery} (member : other ∈ sent) :
      other.eventId ≠ delivery.eventId :=
    apart _ (List.mem_map_of_mem member) _ List.mem_cons_self
  have sentLater {other : PendingDelivery} (member : other ∈ rest) :
      other.eventId ≠ delivery.eventId := by
    intro same
    exact fresh (same ▸ List.mem_map_of_mem member)
  have applied : next.entry delivery.eventId = ⟨some (event.withStatus .applied), none⟩ := by
    rw [changed, if_pos rfl, current]
    simp [Entry.attempted, deliveredStatus, not_le.mpr accepted]
  constructor
  · refine ((Table.rows_perm_of_get (congrArg Entry.delivery current) fun other => ?_).symm.trans
      sending.rows).cons_inv
    have read := congrArg Entry.delivery (changed other)
    rw [apply_ite Entry.delivery] at read
    exact read
  · intro other member
    rcases List.mem_append.mp member with old | new
    · rw [changed, if_neg (sentBefore old)]
      exact sending.applied other old
    · obtain rfl := List.mem_singleton.mp new
      have waits := sending.waiting other List.mem_cons_self
      exact ⟨event, waits.symm.trans (congrArg Entry.event current), applied⟩
  · intro other member
    have kept := congrArg Entry.event (changed other.eventId)
    rw [if_neg (sentLater member)] at kept
    exact kept.trans (sending.waiting other (List.mem_cons_of_mem _ member))

/-- The worker takes the next delivery of its batch. -/
theorem Draining.take {fresh : String}
    (draining : Draining size start db queue passes worker sent total)
    (step : Worker.Step storage settings db (.take fresh) worker later next)
    (valid : ∀ eventId, (db.entry eventId).Valid) :
    Draining size start next queue passes later sent total := by
  have head {batch rest : List PendingDelivery} {eventId : String} {remaining : List String}
      (ids : eventId :: remaining = batch.map PendingDelivery.eventId)
      (sending : Sending start db sent (batch ++ rest)) :
      ∃ delivery others, batch = delivery :: others ∧ db.deliveries.get eventId = some delivery ∧
        remaining = others.map PendingDelivery.eventId := by
    cases batch with
    | nil => cases ids
    | cons delivery others =>
        rw [List.map_cons, List.cons.injEq] at ids
        have member : delivery ∈ db.deliveries.rows :=
          sending.rows.mem_iff.mpr List.mem_cons_self
        exact ⟨delivery, others, rfl, ids.1 ▸ Table.get_of_mem member, ids.2⟩
  cases step with
  | absent _ eventId remaining processed absent =>
      cases draining with
      | passing _ batch rest _ _ _ whole ids sending =>
          obtain ⟨delivery, others, _, found, _⟩ := head ids sending
          cases absent.symm.trans found
  | orphan _ eventId remaining processed delivery present missing =>
      have empty := congrArg Entry.delivery ((valid eventId).absent missing)
      cases present.symm.trans empty
  | call _ eventId remaining processed delivery event found =>
      cases draining with
      | passing _ batch rest _ _ _ whole ids sending count sum =>
          obtain ⟨other, others, rfl, same, later⟩ := head ids sending
          obtain rfl := Option.some.inj (found.symm.trans same)
          exact .calling sent others rest delivery event _ remaining processed total whole later
            sending count sum

/-- An accepted delivery is sent and counted. -/
theorem Draining.deliver {delivery : PendingDelivery} {event : Event} {traceId : String}
    {remaining : List String} {processed : Nat} {response : Response} {now : Rat} {draw : Draw}
    (draining : Draining size start db queue passes
      (.calling delivery event traceId remaining processed) sent total)
    (distinct : (queue.map PendingDelivery.eventId).Nodup)
    (current : db.entry delivery.eventId = ⟨some event, some delivery⟩)
    (accepted : response.statusCode < 400)
    (changed : ∀ eventId, next.entry eventId = if eventId = delivery.eventId then
      (db.entry eventId).attempted settings ⟨.response response, now, draw⟩
      else db.entry eventId) :
    Draining size start next queue passes (.passing remaining (processed + 1)) (sent ++ [delivery])
      total := by
  cases draining with
  | calling _ batch rest _ _ _ _ _ _ whole ids sending count sum =>
      have sent := sending.deliver (whole ▸ distinct) current accepted changed
      refine .passing (_ ++ [delivery]) batch rest remaining (processed + 1) total ?_ ids sent ?_ ?_
      · rw [whole, List.append_assoc]
        rfl
      · rw [List.length_append, List.length_singleton]
        omega
      · rw [List.length_append, List.length_singleton]
        omega

/-- A step of the worker takes the passes on. -/
theorem Draining.work (draining : Draining size start db queue passes worker sent total)
    (positive : 1 ≤ settings.asyncFallbackBatchSize)
    (batched : size = settings.asyncFallbackBatchSize.toNat)
    (ordered : queue.Pairwise fun a b => a.dueKey ≤ b.dueKey)
    (distinct : (queue.map PendingDelivery.eventId).Nodup)
    (step : Worker.Step storage settings db action worker later next)
    (valid : ∀ eventId, (db.entry eventId).Valid)
    (current : worker.Current db)
    (answering : db.Answering action) :
    Draining size start next queue (passes + if action.polls then 1 else 0) later
      (sent ++ (worker.attempt action).toList) (total + (worker.returned action).toList.sum) := by
  cases action with
  | poll now =>
      simp only [Worker.attempt, Worker.returned, Option.toList_none, List.append_nil,
        List.sum_nil, Nat.add_zero]
      cases step with
      | poll => exact draining.poll positive batched ordered answering
  | take fresh =>
      simp only [Worker.attempt, Worker.returned, Option.toList_none, List.append_nil,
        List.sum_nil, Nat.add_zero, Action.polls, Bool.false_eq_true, if_false]
      exact draining.take step valid
  | deliver outcome now draw =>
      obtain ⟨response, rfl, accepted⟩ := answering
      obtain ⟨delivery, event, traceId, remaining, processed, rfl, rfl, changed⟩ :=
        step.attempted valid current
      simp only [Worker.attempt, Worker.held, Worker.returned, Option.map_some, Option.toList_some,
        Option.toList_none, List.sum_nil, Nat.add_zero, Action.polls, Bool.false_eq_true, if_false]
      obtain ⟨own, entry⟩ := current delivery event rfl
      exact draining.deliver distinct (own ▸ entry) accepted changed
  | rest =>
      cases step with
      | rest processed =>
          cases draining with
          | passing _ batch rest _ _ _ whole ids sending count sum =>
              obtain rfl := List.map_eq_nil_iff.mp ids.symm
              simp only [Worker.attempt, Worker.returned, Option.toList_none, Option.toList_some,
                List.append_nil, List.sum_singleton, Nat.add_zero, Action.polls,
                Bool.false_eq_true, if_false]
              exact .idle sent rest _ whole sending count sum
  | crash => exact answering.elim
  | arrive | advance | resume => cases step

/-- The worker holds a delivery of the queue. -/
theorem Draining.held (draining : Draining size start db queue passes worker sent total)
    {delivery : PendingDelivery} {event : Event} (held : worker.held = some (delivery, event)) :
    delivery ∈ queue := by
  cases draining with
  | idle | passing => cases held
  | calling _ _ _ _ _ _ _ _ _ whole =>
      obtain ⟨rfl, _⟩ := Prod.mk.inj (Option.some.inj held)
      rw [whole]
      exact List.mem_append_right sent List.mem_cons_self

end Steps

section Runs
variable {first last : Process} {trace : Trace Process Action}
  (reached : (gateway storage settings).Reachable first) (idle : first.worker = .idle)
  (positive : 1 ≤ settings.asyncFallbackBatchSize)

theorem Worker.returned_of_call {i : Nat} (submits : action.call = some i) :
    worker.returned action = none := by
  cases action with
  | rest => cases submits
  | arrive | advance | resume | poll | take | deliver | crash => rfl

theorem Action.polls_of_call {i : Nat} (submits : action.call = some i) : action.polls = false := by
  cases action with
  | poll => cases submits
  | arrive | advance | resume | take | deliver | rest | crash => rfl

include reached

/-- The deliveries of a reachable state belong to queued events. -/
theorem queued_of_row {delivery : PendingDelivery} (member : delivery ∈ first.db.deliveries.rows) :
    ∃ event, first.db.events.get delivery.eventId = some event ∧
      event.processingStatus = .queued := by
  refine ((consistent_of_reachable reached).valid delivery.eventId).mp ?_
  simp [Database.entry, Table.get_of_mem member]

include idle positive

/-- Every run in which the worker is answered drains the queue in its order. -/
theorem draining_of_runs (runs : (gateway storage settings).Runs first last trace)
    (answering : ∀ transition ∈ trace, transition.before.db.Answering transition.action) :
    Draining settings.asyncFallbackBatchSize.toNat first.db last.db
      (orderBy PendingDelivery.dueKey first.db.deliveries.rows) (passes trace) last.worker
      (attempts trace) (returned trace).sum := by
  obtain ⟨perm, ordered⟩ := orderBy_ordered PendingDelivery.dueKey first.db.deliveries.rows
  induction runs with
  | refl =>
      rw [idle]
      exact .idle [] _ 0 rfl ⟨perm.symm, fun _ member => (by cases member), fun _ _ => rfl⟩
        (by simp [passes]) rfl
  | @step state next trace action earlier taken ih =>
      have draining := ih fun transition member =>
        answering transition (List.mem_append_left _ member)
      have answered : state.db.Answering action :=
        answering _ (List.mem_append_right trace List.mem_cons_self)
      have consistent := consistent_of_reachable (earlier.reachable reached)
      have grown : passes (trace ++ [⟨state, action, next⟩]) =
          passes trace + if action.polls then 1 else 0 := by
        rw [passes, List.countP_append, List.countP_singleton]
        rfl
      rw [attempts_append, grown, returned, filterMap_concat, List.sum_append]
      rcases Process.step_cases taken with ⟨i, submit, step, _, worker⟩ | ⟨step, _⟩ | ⟨rfl, _⟩
      · have submits := step.call_eq
        rw [Worker.attempt_of_call submits, Worker.returned_of_call submits,
          Action.polls_of_call submits, worker, Option.toList_none, List.append_nil]
        refine draining.submit (fun delivery member => ?_) step (consistent.owns i) answered
        obtain ⟨event, present, queued⟩ := queued_of_row reached (perm.subset member)
        exact ⟨event, present, by rw [queued]; decide⟩
      · exact draining.work positive rfl ordered
          ((perm.map _).nodup_iff.mpr first.db.deliveries.unique) step consistent.valid
          consistent.current answered
      · exact answered.elim

/-- The worker leaves every entry outside the queue alone. -/
theorem others_of_runs (runs : (gateway storage settings).Runs first last trace)
    (answering : ∀ transition ∈ trace, transition.before.db.Answering transition.action)
    {transition : Transition Process Action} (member : transition ∈ trace)
    (own : transition.action.call = none) {eventId : String}
    (absent : first.db.deliveries.get eventId = none) :
    transition.after.db.entry eventId = transition.before.db.entry eventId := by
  obtain ⟨earlier, later, rfl⟩ := List.append_of_mem member
  obtain ⟨before, taken, _⟩ := runs.split
  have draining := draining_of_runs reached idle positive before fun other inEarlier =>
    answering other (List.mem_append_left _ inEarlier)
  have consistent := consistent_of_reachable (before.reachable reached)
  rcases Process.step_cases taken with ⟨i, _, step, _⟩ | ⟨step, _⟩ | ⟨_, crashed⟩
  · rw [step.call_eq] at own
    cases own
  · refine step.others consistent.valid consistent.current fun delivery event held same => ?_
    have queued := draining.held held
    have stored := (orderBy_ordered _ _).1.subset queued
    rw [← same, Table.get_of_mem stored] at absent
    cases absent
  · rw [crashed]
    rfl

omit reached idle positive in
/-- A run keeps an entry that each of its steps keeps. -/
theorem entry_of_runs (runs : (gateway storage settings).Runs first last trace) {eventId : String}
    (kept : ∀ transition ∈ trace,
      transition.after.db.entry eventId = transition.before.db.entry eventId) :
    last.db.entry eventId = first.db.entry eventId := by
  induction runs with
  | refl => rfl
  | step action earlier taken ih =>
      have latest := kept _ (List.mem_append_right _ List.mem_cons_self)
      exact latest.trans (ih fun transition member => kept transition (List.mem_append_left _ member))

/-- Enough passes drain the queue. -/
theorem drained_of_runs (runs : (gateway storage settings).Runs first last trace)
    (answering : ∀ transition ∈ trace, transition.before.db.Answering transition.action)
    (enough : first.db.deliveries.rows.length ≤
      passes trace * settings.asyncFallbackBatchSize.toNat) (ended : last.worker = .idle) :
    Drained first.db last.db trace := by
  have order := orderBy_ordered PendingDelivery.dueKey first.db.deliveries.rows
  have draining := draining_of_runs reached idle positive runs answering
  have others (transition : Transition Process Action) (member : transition ∈ trace)
      (own : transition.action.call = none) (eventId : String)
      (absent : first.db.deliveries.get eventId = none) :
      transition.after.db.entry eventId = transition.before.db.entry eventId :=
    others_of_runs reached idle positive runs answering member own absent
  rw [ended] at draining
  generalize sending : attempts trace = sent at draining
  generalize processed : (returned trace).sum = total at draining
  cases draining with
  | idle _ rest _ whole remaining count sum =>
      have length : (orderBy PendingDelivery.dueKey first.db.deliveries.rows).length =
          first.db.deliveries.rows.length := order.1.length_eq
      have all : sent.length = first.db.deliveries.rows.length := by
        rw [count, length]
        omega
      obtain rfl : rest = [] := by
        rw [whole, List.length_append] at length
        exact List.eq_nil_of_length_eq_zero (by omega)
      rw [List.append_nil] at whole
      subst whole
      refine ⟨remaining.rows.eq_nil, sending ▸ order, fun delivery member => ?_, others,
        fun workers eventId absent => ?_, processed.trans (sum.trans all)⟩
      · exact remaining.applied delivery (order.1.mem_iff.mpr member)
      · exact entry_of_runs runs fun transition member =>
          others transition member (workers transition member) eventId absent

end Runs

section Completion
variable {first last : Process} {trace : Trace Process Action}

/-- Only an enabled fallback queues events. -/
theorem enabled_of_queued (reached : (gateway storage settings).Reachable process)
    {eventId : String} {event : Event} (present : process.db.events.get eventId = some event)
    (queued : event.processingStatus = .queued) : settings.asyncFallbackEnabled := by
  refine reached.invariant (fun process => ∀ eventId event,
      process.db.events.get eventId = some event → event.processingStatus = .queued →
        settings.asyncFallbackEnabled) (fun _ _ present => by cases present)
    (fun state action after before enabled taken eventId event present queued => ?_)
    eventId event present queued
  have consistent := consistent_of_reachable before
  rcases consistent.decides taken present with ⟨earlier, old, same⟩ | pending | decides
  · exact enabled eventId earlier old (same.trans queued)
  · cases pending.symm.trans queued
  · rw [queued] at decides
    generalize status : ProcessingStatus.queued = decided at decides
    cases decides with
    | submit i submission event outcome now =>
        cases outcome with
        | response response =>
            simp only [settledStatus] at status
            split at status <;> cases status
        | unavailable message =>
            by_contra disabled
            simp [settledStatus, disabled] at status
        | raised => cases status
    | worker delivery held outcome now draw earlier =>
        obtain ⟨_, entry⟩ := consistent.current delivery held earlier
        exact enabled held.eventId held (congrArg Entry.event entry)
          (Entry.Valid.queued (entry ▸ consistent.valid held.eventId))

/-- The worker attempts a delivery that it holds. -/
theorem Process.held_of_deliver {outcome : CallOutcome} {now : Rat} {draw : Draw}
    (taken : process.step storage settings (.deliver outcome now draw) = some after) :
    ∃ delivery event, process.worker.held = some (delivery, event) := by
  obtain ⟨_, delivered, _⟩ := Option.map_eq_some_iff.mp taken
  cases awaits : process.worker with
  | calling delivery event => exact ⟨delivery, event, rfl⟩
  | idle | passing =>
      rw [awaits] at delivered
      cases delivered

/-- Every delivery is answered 201. -/
def created (_ : String) : Ending := ⟨.response ⟨201, "application/json", some "", none⟩, 0, .zero⟩

theorem answering_of_follows (taken : process.step storage settings action = some after)
    (own : action.call = none) (follows : process.worker.Follows created action) :
    process.db.Answering action := by
  cases action with
  | deliver outcome now draw =>
      obtain ⟨delivery, event, held⟩ := Process.held_of_deliver taken
      cases follows delivery event held
      exact ⟨_, rfl, by decide⟩
  | take | rest => trivial
  | poll | crash => exact follows.elim
  | arrive | advance | resume => cases own

/-- The worker steps of a run are answered. -/
def AnsweredSteps (rest : Trace Process Action) : Prop :=
  ∀ transition ∈ rest, transition.action.call = none ∧
    transition.before.db.Answering transition.action

/-- All deliveries are due at some time. -/
theorem exists_due (deliveries : List PendingDelivery) :
    ∃ now, ∀ delivery ∈ deliveries, delivery.nextAttemptAt ≤ now := by
  induction deliveries with
  | nil => exact ⟨0, fun _ member => by cases member⟩
  | cons delivery rest ih =>
      obtain ⟨now, due⟩ := ih
      refine ⟨max delivery.nextAttemptAt now, List.forall_mem_cons.mpr ⟨le_max_left _ _, ?_⟩⟩
      exact fun other member => (due other member).trans (le_max_right _ _)

theorem passes_append (earlier rest : Trace Process Action) :
    passes (earlier ++ rest) = passes earlier + passes rest := List.countP_append

/-- The worker can start another pass while it is idle. -/
theorem polls_answered (enabled : settings.asyncFallbackEnabled)
    (runs : (gateway storage settings).Runs first process trace)
    (idle : process.worker = .idle) : ∃ after step,
      (gateway storage settings).Runs first after (trace ++ [step]) ∧ AnsweredSteps [step] ∧
        passes [step] = 1 := by
  obtain ⟨now, due⟩ := exists_due process.db.deliveries.rows
  let started := { process with worker := .passing (process.batch settings now) 0 }
  have begins : process.step storage settings (.poll now) = some started :=
    Process.poll_eq_some.mpr ⟨idle, enabled, rfl⟩
  have polled : (gateway storage settings).step process (.poll now) = some started := begins
  exact ⟨started, ⟨process, .poll now, started⟩, runs.step (.poll now) polled,
    List.forall_mem_singleton.mpr ⟨rfl, due⟩, rfl⟩

section Reached
variable (reached : (gateway storage settings).Reachable first)
include reached

/-- The worker can finish its pass while it is answered. -/
theorem finishes_answered (runs : (gateway storage settings).Runs first process trace) :
    ∃ last rest, (gateway storage settings).Runs first last (trace ++ rest) ∧
      AnsweredSteps rest ∧ passes rest = 0 ∧ last.worker = .idle := by
  obtain ⟨last, rest, finished, follows, ends⟩ := finishes created runs
  refine ⟨last, rest, finished, fun transition member => ?_, ?_, ends⟩
  · obtain ⟨own, followed⟩ := follows transition member
    have taken := (finished.transition reached (List.mem_append_right trace member)).2
    exact ⟨own, answering_of_follows taken own followed⟩
  · refine List.countP_eq_zero.mpr fun transition member polls => ?_
    have followed := (follows transition member).2
    cases action : transition.action with
    | poll => exact (action ▸ followed : Worker.Follows _ _ (.poll _)).elim
    | arrive | advance | resume | take | deliver | rest | crash => simp [action, Action.polls] at polls

/-- Any number of further passes is possible. -/
theorem completes (more : Nat) (enabled : 0 < more → settings.asyncFallbackEnabled)
    (runs : (gateway storage settings).Runs first process trace) :
    ∃ last rest, (gateway storage settings).Runs first last (trace ++ rest) ∧
      AnsweredSteps rest ∧ passes rest = more ∧ last.worker = .idle := by
  induction more generalizing process trace with
  | zero => exact finishes_answered reached runs
  | succ more ih =>
      obtain ⟨paused, finishing, finished, answered, none, idle⟩ := finishes_answered reached runs
      obtain ⟨polled, step, started, polling, one⟩ :=
        polls_answered (enabled (Nat.succ_pos more)) finished idle
      obtain ⟨last, rest, whole, others, count, ends⟩ :=
        ih (fun _ => enabled (Nat.succ_pos more)) started
      refine ⟨last, finishing ++ ([step] ++ rest), ?_, ?_, ?_, ends⟩
      · rwa [List.append_assoc, List.append_assoc] at whole
      · exact List.forall_mem_append.mpr ⟨answered, List.forall_mem_append.mpr ⟨polling, others⟩⟩
      · rw [passes_append, passes_append, none, one, count]
        omega

end Reached
end Completion

/-- A number of passes drains the queue: the worker can always complete them, and every run that
completes them while the worker is answered drains the queue. -/
structure DrainsQueue (storage : Storage) (settings : Settings) (count : Nat) (first : Process) :
    Prop where
  completes : ∀ process trace, (gateway storage settings).Runs first process trace →
    passes trace ≤ count → ∃ last rest,
      (gateway storage settings).Runs first last (trace ++ rest) ∧ AnsweredSteps rest ∧
        passes (trace ++ rest) = count ∧ last.worker = .idle
  drains : ∀ last trace, (gateway storage settings).Runs first last trace →
    (∀ transition ∈ trace, transition.before.db.Answering transition.action) →
    count ≤ passes trace → last.worker = .idle → Drained first.db last.db trace

/-- The number of deliveries divided by the size of a batch, rounded up, is the number of passes that
drains the queue. -/
theorem queue_drained {first : Process} (reached : (gateway storage settings).Reachable first)
    (idle : first.worker = .idle) (positive : 1 ≤ settings.asyncFallbackBatchSize) :
    DrainsQueue storage settings
      ⌈(first.db.deliveries.rows.length : Rat) / settings.asyncFallbackBatchSize⌉₊ first := by
  constructor
  · intro process trace runs few
    obtain ⟨more, total⟩ := Nat.exists_eq_add_of_le few
    have enabled (some : 0 < more) : settings.asyncFallbackEnabled := by
      have positive : 0 < first.db.deliveries.rows.length := by
        by_contra none
        rw [Nat.eq_zero_of_not_pos none] at total
        simp at total
        omega
      obtain ⟨delivery, member⟩ := List.exists_mem_of_length_pos positive
      obtain ⟨event, present, queued⟩ := queued_of_row reached member
      exact enabled_of_queued reached present queued
    obtain ⟨last, rest, whole, answered, count, ends⟩ := completes reached more enabled runs
    exact ⟨last, rest, whole, answered, by rw [passes_append, count, total], ends⟩
  · intro last trace runs answering enough ended
    refine drained_of_runs reached idle positive runs answering ?_ ended
    have size : ((settings.asyncFallbackBatchSize.toNat : Int) : Rat) =
        settings.asyncFallbackBatchSize := by rw [Int.toNat_of_nonneg (by omega)]
    have room : (0 : Rat) < settings.asyncFallbackBatchSize := by exact_mod_cast positive
    have bound := (div_le_iff₀ room).mp (Nat.ceil_le.mp enough)
    rw [← size] at bound
    exact_mod_cast bound

/-- Each pass takes one delivery. -/
def oneByOne : Settings := { Settings.default with asyncFallbackBatchSize := 1 }

theorem queue_drained_twice : ∃ process,
    (gateway .wallClock oneByOne).run (gateway .wallClock oneByOne).initial twoQueued = some process ∧
      process.db.deliveries.rows.length = 2 ∧ DrainsQueue .wallClock oneByOne 2 process := by
  obtain ⟨process, ran, observed⟩ := Option.map_eq_some_iff.mp
    (show ((gateway .wallClock oneByOne).run (gateway .wallClock oneByOne).initial twoQueued).map
      (fun process => (process.worker, process.db.deliveries.rows.length)) = some (.idle, 2) by rfl)
  obtain ⟨idle, length⟩ := Prod.mk.inj observed
  have drained := queue_drained (Machine.reachable_of_run _ .initial ran) idle (by decide)
  have count : ⌈((2 : Nat) : Rat) / ((1 : Int) : Rat)⌉₊ = 2 := by norm_num
  rw [length, show oneByOne.asyncFallbackBatchSize = 1 from rfl, count] at drained
  exact ⟨process, ran, length, drained⟩

end EventLedger.EventGateway
