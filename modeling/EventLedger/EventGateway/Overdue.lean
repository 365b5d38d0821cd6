import EventLedger.EventGateway.Backoff
import EventLedger.EventGateway.QueueDrain

namespace EventLedger.EventGateway
open Library Python

variable {storage : Storage} {settings : Settings} {start db next : Database}
  {process after : Process} {action : Action} {worker later : Worker} {eventId : String}
  {target row : PendingDelivery}

/-- These deliveries are before a delivery in the order of the queue. -/
def Database.before (db : Database) (target : PendingDelivery) : List PendingDelivery :=
  db.deliveries.rows.filter fun row => decide (row.dueKey < target.dueKey)

/-- The clock has passed the time of a delivery, and the worker is not interrupted. -/
def PendingDelivery.Overdue (target : PendingDelivery) : Action → Prop
  | .poll now | .resume _ _ now => target.nextAttemptAt < now
  | .deliver outcome now _ => target.nextAttemptAt < now ∧ outcome ≠ .raised
  | .crash => False
  | .arrive _ _ | .advance _ | .take _ | .rest => True

section Before

theorem Database.mem_before : row ∈ db.before target ↔
    db.deliveries.get row.eventId = some row ∧ row.dueKey < target.dueKey := by
  simp only [before, List.mem_filter, decide_eq_true_eq, Table.get_eq_some, and_true]

/-- A delivery at a later time is not before the target. -/
theorem PendingDelivery.not_before_of_lt (later : target.nextAttemptAt < row.nextAttemptAt) :
    ¬ row.dueKey < target.dueKey := by
  rw [dueKey, dueKey, Prod.Lex.toLex_lt_toLex]
  rintro (earlier | ⟨same, _⟩)
  · exact lt_asymm later earlier
  · exact absurd same later.ne'

/-- The worker sorts deliveries in the order of the queue. -/
theorem insertionSort_ordered (rows : List PendingDelivery) :
    Ordered PendingDelivery.dueKey rows (rows.insertionSort PendingDelivery.before) := by
  have same : PendingDelivery.before = fun first second => first.dueKey ≤ second.dueKey := by
    funext first second
    exact propext (PendingDelivery.before_iff first second)
  have sorted := orderBy_ordered PendingDelivery.dueKey rows
  convert sorted using 1
  unfold orderBy
  congr!

/-- A batch reaches the target after deliveries that are before it, or is full of such deliveries. -/
theorem dueEventIds_cases {limit : Int} {now : Rat} (positive : 1 ≤ limit)
    (waits : db.deliveries.get target.eventId = some target) (due : target.nextAttemptAt ≤ now) :
    (∃ front tail, dueEventIds db.deliveries limit now = front ++ target.eventId :: tail ∧
      ∀ id ∈ front, ∃ row ∈ db.before target, row.eventId = id) ∨
    (dueEventIds db.deliveries limit now).length = limit.toNat ∧
      ∀ id ∈ dueEventIds db.deliveries limit now, ∃ row ∈ db.before target, row.eventId = id := by
  let dueRows := db.deliveries.rows.filter fun row => decide (row.nextAttemptAt ≤ now)
  have stored : target ∈ dueRows :=
    List.mem_filter.mpr ⟨Table.mem_of_get waits, decide_eq_true due⟩
  have sorted := insertionSort_ordered dueRows
  have distinct : (dueRows.map PendingDelivery.dueKey).Nodup :=
    (dueKeys_nodup db.deliveries).sublist (List.filter_sublist.map _)
  have batch : dueEventIds db.deliveries limit now =
      ((dueRows.insertionSort PendingDelivery.before).take limit.toNat).map
        PendingDelivery.eventId := by
    simp only [dueEventIds, dueRows, if_neg (show ¬ limit < 0 by omega)]
  have ahead {rows : List PendingDelivery}
      (drawn : rows ⊆ dueRows) (below : ∀ row ∈ rows, row.dueKey < target.dueKey) :
      ∀ id ∈ rows.map PendingDelivery.eventId, ∃ row ∈ db.before target, row.eventId = id := by
    intro id member
    obtain ⟨row, inRows, rfl⟩ := List.mem_map.mp member
    have waiting := (List.mem_filter.mp (drawn inRows)).1
    exact ⟨row, Database.mem_before.mpr ⟨Table.get_of_mem waiting, below row inRows⟩, rfl⟩
  have taken : (dueRows.insertionSort PendingDelivery.before).take limit.toNat ⊆ dueRows :=
    List.Subset.trans (List.take_subset _ _) sorted.1.subset
  rw [batch]
  rcases sorted.take_cases distinct limit.toNat stored with ⟨front, tail, whole, below⟩ | ⟨full, below⟩
  · rw [whole] at taken ⊢
    refine .inl ⟨front.map PendingDelivery.eventId, tail.map PendingDelivery.eventId, by simp, ?_⟩
    exact ahead (List.Subset.trans (List.subset_append_left _ _) taken) below
  · exact .inr ⟨by rw [List.length_map, full], ahead taken below⟩

end Before

section Rows

/-- A submit adds a delivery only at the time at which it resumes. -/
theorem Submit.Step.enqueues {i : Nat} {before submit : Submit}
    (step : Submit.Step storage settings db i action before submit next)
    (owns : before.Owns storage db) (queued : next.deliveries.get eventId = some row) :
    db.deliveries.get eventId = some row ∨ ∃ outcome, action = .resume i outcome row.nextAttemptAt := by
  cases action with
  | resume j outcome now =>
      cases step with
      | settle submission event _ _ settled committed =>
          obtain ⟨rfl, pending⟩ := owns submission event rfl
          obtain ⟨present, absent⟩ := Entry.mk.inj pending
          obtain ⟨_, ⟨_, rfl⟩ | ⟨_, rfl⟩⟩ := Submission.settle_cases absent settled
          · rcases delivery_of_changed (Database.commit_settle present committed) queued with
              ⟨_, kept⟩ | ⟨_, kept⟩
            · exact .inl kept
            · exact .inl kept
          · rcases delivery_of_changed (Database.commit_queue present rfl committed) queued with
              ⟨_, added⟩ | ⟨_, kept⟩
            · obtain rfl := Option.some.inj added
              exact .inr ⟨outcome, rfl⟩
            · exact .inl kept
      | stale | raise => exact .inl queued
  | arrive | advance =>
      have same : next.deliveries = db.deliveries := step.deliveries trivial
      exact .inl (same ▸ queued)
  | poll | take | deliver | rest | crash => cases step

/-- An attempt that completes puts its delivery off or removes it. -/
theorem Entry.attempted_later {ending : Ending} {entry : Entry}
    (backoff : settings.NonnegativeBackoff) (completes : ending.outcome ≠ .raised)
    (waits : (entry.attempted settings ending).delivery = some row) :
    ending.now ≤ row.nextAttemptAt := by
  unfold attempted at waits
  split at waits
  · cases waits
  · obtain ⟨delivery, _, rfl⟩ := Option.map_eq_some_iff.mp waits
    have spaced := (backoffSeconds_spec backoff (delivery.attemptCount + 1) ending.draw).1
    have bound : 0 ≤ backoffBound settings (delivery.attemptCount + 1) :=
      le_min (mul_nonneg backoff.base (pow_nonneg two_pos.le _)) backoff.max
    exact le_add_of_nonneg_right (bound.trans spaced)
  · next raised => exact absurd raised completes

/-- While a delivery is overdue, every other delivery is kept as it is or comes after it. -/
theorem Process.Consistent.postpones (consistent : process.Consistent storage)
    (backoff : settings.NonnegativeBackoff) (overdue : target.Overdue action)
    (taken : process.step storage settings action = some after)
    (queued : after.db.deliveries.get eventId = some row) :
    process.db.deliveries.get eventId = some row ∨ target.nextAttemptAt < row.nextAttemptAt := by
  rcases Process.step_cases taken with ⟨i, submit, step, _⟩ | ⟨step, _⟩ | ⟨rfl, _⟩
  · rcases step.enqueues (consistent.owns i) queued with kept | ⟨outcome, rfl⟩
    · exact .inl kept
    · exact .inr overdue
  · cases action with
    | deliver outcome now draw =>
        obtain ⟨ended, _, changed⟩ := step.endsAttempt consistent
        rcases delivery_of_changed changed queued with ⟨_, attempted⟩ | ⟨_, kept⟩
        · exact .inr (lt_of_lt_of_le overdue.1 (Entry.attempted_later backoff overdue.2 attempted))
        · exact .inl kept
    | poll | take | rest | crash =>
        have same : after.db.entry eventId = process.db.entry eventId := by
          cases step.effect consistent.valid consistent.current with
          | silent _ same | call _ _ _ _ same => exact same eventId
          | deliver _ _ _ _ _ _ _ status =>
              obtain ⟨_, _, _, delivers, _⟩ := status
              cases delivers
        exact .inl ((congrArg Entry.delivery same).symm.trans queued)
    | arrive | advance | resume => cases step
  · exact overdue.elim

end Rows

/-- The ids of a list belong to deliveries before the target. -/
def Database.AllBefore (db : Database) (target : PendingDelivery) (ids : List String) : Prop :=
  ∀ id ∈ ids, ∃ row ∈ db.before target, row.eventId = id

/-- The pass that is going on attempts only deliveries before the target, or reaches it. -/
inductive Approaches (db : Database) (target : PendingDelivery) (attempted goal : Nat)
    (ids : List String) : Prop where
  | before (all : db.AllBefore target ids) (count : attempted + ids.length = goal)
  | reaches (front tail : List String) (whole : ids = front ++ target.eventId :: tail)
      (all : db.AllBefore target front)

/-- The target is delayed: it waits, and every attempt so far has taken a delivery from before it. -/
structure Delayed (start db : Database) (target : PendingDelivery) (goal : Nat) (worker : Worker)
    (attempted : List PendingDelivery) : Prop where
  waiting : db.deliveries.get target.eventId = some target
  kept : db.before target ⊆ start.before target
  once : attempted.Nodup
  passed : ∀ row ∈ attempted, row ∈ start.before target ∧ row ∉ db.before target
  distinct : worker.ahead.Nodup
  approaches : Approaches db target attempted.length goal worker.ahead

section Waiting
variable {goal : Nat} {attempted : List PendingDelivery} {ids : List String}

/-- The next delivery of the pass is the target or one before it, and it is stored. -/
theorem Approaches.head {n : Nat} (approaches : Approaches db target n goal (eventId :: ids))
    (waits : db.deliveries.get target.eventId = some target) :
    ∃ row, db.deliveries.get eventId = some row ∧ (row = target ∨ row ∈ db.before target) := by
  have earlier (all : ∃ row ∈ db.before target, row.eventId = eventId) :
      ∃ row, db.deliveries.get eventId = some row ∧ (row = target ∨ row ∈ db.before target) := by
    obtain ⟨row, member, rfl⟩ := all
    exact ⟨row, (Database.mem_before.mp member).1, .inr member⟩
  cases approaches with
  | before all => exact earlier (all eventId List.mem_cons_self)
  | reaches front tail whole all =>
      cases front with
      | nil =>
          obtain ⟨rfl, _⟩ := List.cons.inj whole
          exact ⟨target, waits, .inl rfl⟩
      | cons head rest =>
          obtain ⟨rfl, _⟩ := List.cons.inj whole
          exact earlier (all eventId List.mem_cons_self)

/-- Deliveries before the target that are still stored are still before it. -/
theorem Database.AllBefore.frame (all : db.AllBefore target ids)
    (same : ∀ row ∈ db.before target, row.eventId ∈ ids →
      next.deliveries.get row.eventId = some row) : next.AllBefore target ids := by
  intro id member
  obtain ⟨row, before, rfl⟩ := all id member
  obtain ⟨_, below⟩ := Database.mem_before.mp before
  exact ⟨row, Database.mem_before.mpr ⟨same row before member, below⟩, rfl⟩

/-- A step that keeps all deliveries keeps the pass on its way. -/
theorem Delayed.frame (waits : Delayed start db target goal worker attempted)
    (fewer : next.before target ⊆ db.before target)
    (same : ∀ id row, db.deliveries.get id = some row → next.deliveries.get id = some row) :
    Delayed start next target goal worker attempted where
  waiting := same _ _ waits.waiting
  kept := List.Subset.trans fewer waits.kept
  once := waits.once
  passed row member := by
    obtain ⟨first, gone⟩ := waits.passed row member
    exact ⟨first, fun before => gone (fewer before)⟩
  distinct := waits.distinct
  approaches := by
    have stays {ids : List String} (all : db.AllBefore target ids) : next.AllBefore target ids :=
      all.frame fun row before _ => same _ _ (Database.mem_before.mp before).1
    cases waits.approaches with
    | before all count => exact .before (stays all) count
    | reaches front tail whole all => exact .reaches front tail whole (stays all)

/-- The end of an attempt before the target takes the pass closer to it. -/
theorem Approaches.tail {n : Nat} (approaches : Approaches db target n goal (eventId :: ids))
    (other : eventId ≠ target.eventId) (distinct : (eventId :: ids).Nodup)
    (same : ∀ id, id ≠ eventId → next.deliveries.get id = db.deliveries.get id) :
    Approaches next target (n + 1) goal ids := by
  obtain ⟨fresh, _⟩ := List.nodup_cons.mp distinct
  have stays {rest : List String} (all : db.AllBefore target rest) (drawn : rest ⊆ ids) :
      next.AllBefore target rest := by
    refine all.frame fun row before member => ?_
    have different : row.eventId ≠ eventId := fun equal => fresh (equal ▸ drawn member)
    exact (same _ different).trans (Database.mem_before.mp before).1
  cases approaches with
  | before all count =>
      refine .before (stays (fun id member => all id (List.mem_cons_of_mem _ member))
        (List.Subset.refl _)) ?_
      rw [List.length_cons] at count
      omega
  | reaches front tail whole all =>
      cases front with
      | nil => exact absurd (List.cons.inj whole).1 other
      | cons head rest =>
          obtain ⟨rfl, rfl⟩ := List.cons.inj whole
          exact .reaches rest tail rfl (stays (fun id member => all id (List.mem_cons_of_mem _ member))
            (List.subset_append_left _ _))

/-- A completed attempt takes its delivery from before an overdue one. -/
theorem not_before_of_attempted {ending : Ending} (backoff : settings.NonnegativeBackoff)
    (completes : ending.outcome ≠ .raised) (past : target.nextAttemptAt < ending.now)
    (entry : next.entry row.eventId = (db.entry row.eventId).attempted settings ending) :
    row ∉ next.before target := by
  intro member
  obtain ⟨waiting, below⟩ := Database.mem_before.mp member
  have stored := (congrArg Entry.delivery entry).symm.trans waiting
  have later := Entry.attempted_later backoff completes stored
  exact PendingDelivery.not_before_of_lt (lt_of_lt_of_le past later) below

/-- The attempt of a delivery from before the target extends the attempts so far. -/
theorem Delayed.passes (waits : Delayed start db target goal worker attempted)
    (fewer : next.before target ⊆ db.before target) (before : row ∈ db.before target)
    (gone : row ∉ next.before target) :
    (attempted ++ [row]).Nodup ∧
      ∀ passed ∈ attempted ++ [row], passed ∈ start.before target ∧ passed ∉ next.before target := by
  constructor
  · apply List.nodup_append.mpr ⟨waits.once, List.nodup_singleton row, ?_⟩
    intro passed earlier latest new equal
    obtain rfl := List.mem_singleton.mp new
    exact (waits.passed passed earlier).2 (equal ▸ before)
  · intro passed member
    rcases List.mem_append.mp member with earlier | new
    · obtain ⟨first, missing⟩ := waits.passed passed earlier
      exact ⟨first, fun still => missing (fewer still)⟩
    · obtain rfl := List.mem_singleton.mp new
      exact ⟨waits.kept before, gone⟩

/-- A step without an attempt adds none. -/
theorem Delayed.quiet (waits : Delayed start db target goal worker attempted) :
    Delayed start db target goal worker (attempted ++ Option.toList none) := by
  rwa [Option.toList_none, List.append_nil]

end Waiting

section Steps
variable {goal : Nat} {attempted : List PendingDelivery}

/-- A new pass approaches the overdue target. -/
theorem Delayed.poll {now : Rat} (waits : Delayed start db target goal .idle attempted)
    (positive : 1 ≤ settings.asyncFallbackBatchSize) (due : target.nextAttemptAt ≤ now) :
    Delayed start db target (goal + settings.asyncFallbackBatchSize.toNat)
      (.passing (dueEventIds db.deliveries settings.asyncFallbackBatchSize now) 0) attempted := by
  have count : attempted.length = goal := by
    cases waits.approaches with
    | before _ count => exact count
    | reaches front tail whole => simp [Worker.ahead] at whole
  refine { waits with distinct := dueEventIds_nodup, approaches := ?_ }
  rcases dueEventIds_cases positive waits.waiting due with ⟨front, tail, whole, all⟩ | ⟨full, all⟩
  · exact .reaches front tail whole all
  · refine .before all ?_
    show _ + (dueEventIds _ _ _).length = _
    rw [full, count]

/-- The worker takes the next delivery of its pass. -/
theorem Delayed.take {fresh : String} (waits : Delayed start db target goal worker attempted)
    (valid : ∀ eventId, (db.entry eventId).Valid)
    (step : Worker.Step storage settings db (.take fresh) worker later next) :
    Delayed start next target goal later attempted := by
  cases step with
  | absent _ eventId remaining processed absent =>
      obtain ⟨row, stored, _⟩ := waits.approaches.head waits.waiting
      cases absent.symm.trans stored
  | orphan _ eventId remaining processed delivery present missing =>
      have empty := congrArg Entry.delivery ((valid eventId).absent missing)
      cases present.symm.trans empty
  | call _ eventId remaining processed delivery event queued =>
      obtain rfl : delivery.eventId = eventId := Table.key_of_get queued
      exact { waits with }

/-- The end of an attempt is that of the target or takes the pass closer to it. -/
theorem Delayed.deliver {outcome : CallOutcome} {now : Rat} {draw : Draw}
    (waits : Delayed start db target goal worker attempted)
    (valid : ∀ eventId, (db.entry eventId).Valid) (current : worker.Current db)
    (fewer : next.before target ⊆ db.before target) (backoff : settings.NonnegativeBackoff)
    (overdue : target.Overdue (.deliver outcome now draw))
    (step : Worker.Step storage settings db (.deliver outcome now draw) worker later next) :
    worker.attempt (.deliver outcome now draw) = some target ∨
      Delayed start next target goal later
        (attempted ++ (worker.attempt (.deliver outcome now draw)).toList) := by
  obtain ⟨delivery, event, traceId, remaining, processed, rfl, rfl, changed⟩ :=
    step.attempted valid current
  obtain ⟨own, entry⟩ := current delivery event rfl
  have stored : db.deliveries.get delivery.eventId = some delivery := by
    rw [own]
    exact congrArg Entry.delivery entry
  obtain ⟨row, found, is⟩ := waits.approaches.head waits.waiting
  obtain rfl := Option.some.inj (stored.symm.trans found)
  rcases is with rfl | before
  · exact .inl rfl
  have other : delivery.eventId ≠ target.eventId := by
    intro equal
    rw [equal, waits.waiting] at stored
    obtain rfl := Option.some.inj stored
    exact lt_irrefl _ (Database.mem_before.mp before).2
  have same (id : String) (different : id ≠ delivery.eventId) :
      next.deliveries.get id = db.deliveries.get id := by
    have kept := congrArg Entry.delivery (changed id)
    rwa [if_neg different] at kept
  have gone : delivery ∉ next.before target :=
    not_before_of_attempted backoff overdue.2 overdue.1 ((changed delivery.eventId).trans (if_pos rfl))
  have ahead : (Worker.resumed remaining processed outcome).ahead = remaining := by
    cases outcome with
    | response | unavailable => rfl
    | raised => exact absurd rfl overdue.2
  obtain ⟨once, passed⟩ := waits.passes fewer before gone
  right
  constructor
  · exact (same _ other.symm).trans waits.waiting
  · exact List.Subset.trans fewer waits.kept
  · exact once
  · exact passed
  · rw [ahead]
    exact (List.nodup_cons.mp waits.distinct).2
  · rw [ahead, List.length_append]
    exact waits.approaches.tail other waits.distinct same

/-- The worker attempts the target, or the pass stays on its way. -/
theorem Delayed.work (waits : Delayed start db target goal worker attempted)
    (valid : ∀ eventId, (db.entry eventId).Valid) (current : worker.Current db)
    (fewer : next.before target ⊆ db.before target) (backoff : settings.NonnegativeBackoff)
    (positive : 1 ≤ settings.asyncFallbackBatchSize) (overdue : target.Overdue action)
    (step : Worker.Step storage settings db action worker later next) :
    worker.attempt action = some target ∨
      Delayed start next target
        (goal + if action.polls then settings.asyncFallbackBatchSize.toNat else 0) later
        (attempted ++ (worker.attempt action).toList) := by
  cases action with
  | deliver => exact waits.deliver valid current fewer backoff overdue step
  | take => exact .inr (waits.take valid step).quiet
  | poll now =>
      cases step with
      | poll => exact .inr (waits.poll positive overdue.le).quiet
  | rest =>
      cases step with
      | rest => exact .inr (Delayed.quiet { waits with })
  | crash => exact overdue.elim
  | arrive | advance | resume => cases step

/-- No step adds a delivery before an overdue one. -/
theorem before_subset (consistent : process.Consistent storage)
    (backoff : settings.NonnegativeBackoff) (overdue : target.Overdue action)
    (taken : process.step storage settings action = some after) :
    after.db.before target ⊆ process.db.before target := by
  intro row member
  obtain ⟨stored, below⟩ := Database.mem_before.mp member
  rcases consistent.postpones backoff overdue taken stored with kept | later
  · exact Database.mem_before.mpr ⟨kept, below⟩
  · exact absurd below (PendingDelivery.not_before_of_lt later)

/-- A step attempts the target or keeps it waiting. -/
theorem Delayed.step (waits : Delayed start process.db target goal process.worker attempted)
    (consistent : process.Consistent storage) (backoff : settings.NonnegativeBackoff)
    (positive : 1 ≤ settings.asyncFallbackBatchSize) (overdue : target.Overdue action)
    (taken : process.step storage settings action = some after) :
    process.worker.attempt action = some target ∨
      Delayed start after.db target
        (goal + if action.polls then settings.asyncFallbackBatchSize.toNat else 0) after.worker
        (attempted ++ (process.worker.attempt action).toList) := by
  have fewer := before_subset consistent backoff overdue taken
  rcases Process.step_cases taken with ⟨i, submit, step, _, worker⟩ | ⟨step, _⟩ | ⟨rfl, _⟩
  · have submits := step.call_eq
    rw [Worker.attempt_of_call submits, Action.polls_of_call submits, worker, Option.toList_none,
      List.append_nil]
    refine .inr (waits.frame fewer fun id row stored => ?_)
    -- A stored delivery belongs to a queued event, which no submit touches.
    obtain ⟨event, present, queued⟩ := (consistent.valid id).mp (by rw [Database.entry, stored]; rfl)
    have released : (process.db.entry id).Released := ⟨event, present, by rw [queued]; decide⟩
    have same := (step.effect (consistent.owns i)).released released
    exact (congrArg Entry.delivery same).trans stored
  · exact waits.work consistent.valid consistent.current fewer backoff positive overdue step
  · exact overdue.elim

end Steps

section Runs
variable {first last : Process} {trace : Trace Process Action}

/-- Until its attempt an overdue delivery waits for the deliveries before it only. -/
theorem delayed_of_runs (reached : (gateway storage settings).Reachable first)
    (idle : first.worker = .idle) (backoff : settings.NonnegativeBackoff)
    (positive : 1 ≤ settings.asyncFallbackBatchSize)
    (queued : first.db.deliveries.get target.eventId = some target)
    (runs : (gateway storage settings).Runs first last trace)
    (overdue : ∀ transition ∈ trace, target.Overdue transition.action) :
    target ∈ attempts trace ∨
      Delayed first.db last.db target (passes trace * settings.asyncFallbackBatchSize.toNat)
        last.worker (attempts trace) := by
  induction runs with
  | refl =>
      refine .inr ⟨queued, List.Subset.refl _, List.nodup_nil,
        fun _ member => (by cases member), ?_, ?_⟩
      · rw [idle]
        exact List.nodup_nil
      · rw [idle]
        exact .before nofun (by simp [Worker.ahead, passes, attempts])
  | @step state next trace action earlier taken ih =>
      rw [attempts_append]
      rcases ih fun transition member => overdue transition (List.mem_append_left _ member) with
        done | waits
      · exact .inl (List.mem_append_left _ done)
      have consistent := consistent_of_reachable (earlier.reachable reached)
      have condition := overdue _ (List.mem_append_right trace List.mem_cons_self)
      rcases waits.step consistent backoff positive condition taken with attempt | waits
      · exact .inl (List.mem_append_right _ (by simp [attempt]))
      · have goal : passes (trace ++ [⟨state, action, next⟩]) *
              settings.asyncFallbackBatchSize.toNat =
            passes trace * settings.asyncFallbackBatchSize.toNat +
              if action.polls then settings.asyncFallbackBatchSize.toNat else 0 := by
          rw [passes, List.countP_append, List.countP_singleton, Nat.add_mul, ite_mul, one_mul,
            zero_mul]
          rfl
        rw [goal]
        exact .inr waits

/-- An overdue delivery is attempted by a pass after at most as many batches as hold the deliveries
before it, whatever happens to these and to later ones. -/
theorem overdue_attempted (reached : (gateway storage settings).Reachable first)
    (idle : first.worker = .idle) (backoff : settings.NonnegativeBackoff)
    (positive : 1 ≤ settings.asyncFallbackBatchSize)
    (queued : first.db.deliveries.get target.eventId = some target)
    (runs : (gateway storage settings).Runs first last trace)
    (overdue : ∀ transition ∈ trace, target.Overdue transition.action)
    (ended : last.worker = .idle)
    (enough : (first.db.before target).length <
      passes trace * settings.asyncFallbackBatchSize.toNat) : target ∈ attempts trace := by
  rcases delayed_of_runs reached idle backoff positive queued runs overdue with done | waits
  · exact done
  · have count : (attempts trace).length =
        passes trace * settings.asyncFallbackBatchSize.toNat := by
      cases waits.approaches with
      | before _ count => rwa [ended] at count
      | reaches front tail whole => simp [ended, Worker.ahead] at whole
    have drawn : attempts trace ⊆ first.db.before target := fun row member =>
      (waits.passed row member).1
    have few := (List.subperm_of_subset waits.once drawn).length_le
    omega

end Runs

/-- The first delivery of the queue fails, and the second one is next although the first one is due
again. -/
def failingFirst : List Action :=
  [.poll 1, .take "", .deliver (.unavailable "timeout") 1 .zero, .rest,
    .poll 5, .take "", .deliver (.response ⟨201, "application/json", some "", none⟩) 5 .zero, .rest,
    .poll 6, .take "", .deliver (.response ⟨201, "application/json", some "", none⟩) 6 .zero, .rest]

theorem overdue_attempted_second : ∃ first last trace target,
    (gateway .wallClock oneByOne).run (gateway .wallClock oneByOne).initial twoQueued = some first ∧
    (gateway .wallClock oneByOne).traced.run (first, []) failingFirst = some (last, trace) ∧
    target.eventId = "y" ∧ target ∈ attempts trace := by
  obtain ⟨first, ran, observed⟩ := Option.map_eq_some_iff.mp
    (show ((gateway .wallClock oneByOne).run (gateway .wallClock oneByOne).initial twoQueued).map
      (fun first => (first.worker, first.db.deliveries.rows.length, first.db.deliveries.get "y")) =
        some (.idle, 2, some ((Submission.mk creditY.event "trace").delivery 0)) by rfl)
  have passed : ((gateway .wallClock oneByOne).run (gateway .wallClock oneByOne).initial twoQueued).bind
      (fun first => ((gateway .wallClock oneByOne).traced.run (first, []) failingFirst).map
        fun observed => (observed.1.worker.left, passes observed.2)) = some (0, 3) := by
    decide +kernel
  rw [ran, Option.bind_some] at passed
  obtain ⟨⟨last, trace⟩, attempting, counted⟩ := Option.map_eq_some_iff.mp passed
  obtain ⟨idle, length, queued⟩ := by simpa only [Prod.mk.injEq] using observed
  obtain ⟨finished, count⟩ := Prod.mk.inj counted
  have ended : last.worker = .idle := by
    cases worker : last.worker with
    | idle => rfl
    | passing | calling => simp [worker, Worker.left] at finished
  let target := (Submission.mk creditY.event "trace").delivery 0
  have conditions : ∀ action ∈ failingFirst, target.Overdue action := by
    have time : target.nextAttemptAt = 0 := rfl
    simp [failingFirst, PendingDelivery.Overdue, time]
  have actions : trace.map Transition.action = failingFirst := Machine.traced_run attempting
  refine ⟨first, last, trace, target, ran, attempting, rfl, overdue_attempted
    (Machine.reachable_of_run _ .initial ran) idle ⟨by decide +kernel, by decide +kernel,
      by decide +kernel⟩ (by decide) queued (Machine.runs_of_traced .refl attempting)
    (fun transition member => ?_) ended ?_⟩
  · exact conditions _ (actions ▸ List.mem_map_of_mem member)
  · rw [count]
    refine lt_of_le_of_lt (List.length_filter_le _ _) ?_
    rw [length]
    decide

end EventLedger.EventGateway
