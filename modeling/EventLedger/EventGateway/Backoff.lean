import EventLedger.EventGateway.Passes
import EventLedger.Library.Clocked

namespace EventLedger.EventGateway
open Library Python

variable {storage : Storage} {settings : Settings} {db next : Database} {process after : Process}
  {action : Action} {worker later : Worker} {eventId : String} {now : Rat}

section Bound

/-- The bounds of the backoff are not negative. -/
structure Settings.NonnegativeBackoff (settings : Settings) : Prop where
  base : 0 ≤ settings.asyncFallbackBaseBackoffSeconds
  max : 0 ≤ settings.asyncFallbackMaxBackoffSeconds
  jitter : 0 ≤ settings.asyncFallbackJitterSeconds

/-- This is the backoff after a number of failed attempts without its jitter. -/
def backoffBound (settings : Settings) (attemptCount : Nat) : Rat :=
  min (settings.asyncFallbackBaseBackoffSeconds * 2 ^ min (attemptCount - 1) 16)
    settings.asyncFallbackMaxBackoffSeconds

theorem backoffBound_le_max (settings : Settings) (attemptCount : Nat) :
    backoffBound settings attemptCount ≤ settings.asyncFallbackMaxBackoffSeconds :=
  min_le_right _ _

/-- More failed attempts never shorten the backoff. -/
theorem backoffBound_mono (nonnegative : settings.NonnegativeBackoff) :
    Monotone (backoffBound settings) := by
  intro fewer more order
  have exponent : min (fewer - 1) 16 ≤ min (more - 1) 16 := by omega
  exact min_le_min_right _
    (mul_le_mul_of_nonneg_left (pow_le_pow_right₀ one_le_two exponent) nonnegative.base)

/-- The jitter is the only difference between a backoff and its bound. -/
theorem backoffSeconds_spec (nonnegative : settings.NonnegativeBackoff) (attemptCount : Nat)
    (draw : Draw) :
    backoffBound settings attemptCount ≤ backoffSeconds settings attemptCount draw ∧
      backoffSeconds settings attemptCount draw ≤
        backoffBound settings attemptCount + settings.asyncFallbackJitterSeconds := by
  obtain ⟨value, low, high⟩ := draw
  have drawn : backoffSeconds settings attemptCount ⟨value, low, high⟩ =
      backoffBound settings attemptCount + settings.asyncFallbackJitterSeconds * value := rfl
  rw [drawn]
  have small := mul_le_of_le_one_right nonnegative.jitter high
  have positive := mul_nonneg nonnegative.jitter low
  constructor <;> linarith

end Bound

/-- These actions read the clock. -/
def Action.clock : Action → Option Rat
  | .resume _ _ now | .poll now | .deliver _ now _ => some now
  | .arrive _ _ | .advance _ | .take _ | .rest | .crash => none

/-- The gateway runs under a clock that starts at any time. -/
def clockedGateway (storage : Storage) (settings : Settings) (start : Rat) :
    Machine (Clocked Process Rat) (Timed Action Rat) :=
  (gateway storage settings).clocked Action.clock start

abbrev ClockedStep := Transition (Clocked Process Rat) (Timed Action Rat)

abbrev ClockedTrace := Trace (Clocked Process Rat) (Timed Action Rat)

section Worker

/-- The worker awaits the end of an attempt of this event. -/
def Worker.heldId (worker : Worker) : Option String := worker.held.map fun held => held.1.eventId

/-- The worker has these event ids still before it in its pass. -/
def Worker.ahead : Worker → List String
  | .idle => []
  | .passing remaining _ => remaining
  | .calling delivery _ _ remaining _ => delivery.eventId :: remaining

theorem Worker.mem_ahead_of_heldId (held : worker.heldId = some eventId) :
    eventId ∈ worker.ahead := by
  cases worker with
  | idle | passing => cases held
  | calling delivery event traceId remaining processed =>
      obtain rfl := Option.some.inj held
      exact List.mem_cons_self

/-- A poll reads the event ids of a pass, and every other step of the worker only drops some. -/
theorem Worker.Step.ahead (step : Worker.Step storage settings db action worker later next) :
    (∃ now, action = .poll now ∧
      later.ahead = dueEventIds db.deliveries settings.asyncFallbackBatchSize now) ∨
    later.ahead.Sublist worker.ahead := by
  cases step with
  | poll now => exact .inl ⟨now, rfl, rfl⟩
  | absent | orphan | deliver => exact .inr (List.sublist_cons_self _ _)
  | call fresh eventId remaining processed delivery event queued =>
      obtain rfl : delivery.eventId = eventId := Table.key_of_get queued
      exact .inr (List.Sublist.refl _)
  | stale | raise | rest => exact .inr (List.nil_sublist _)

/-- An attempt that ends is not before the worker any more. -/
theorem Worker.Step.not_mem_ahead {outcome : CallOutcome} {draw : Draw}
    (step : Worker.Step storage settings db (.deliver outcome now draw) worker later next)
    (distinct : worker.ahead.Nodup) (held : worker.heldId = some eventId) :
    eventId ∉ later.ahead := by
  cases step with
  | deliver delivery event traceId remaining processed =>
      obtain rfl := Option.some.inj held
      exact (List.nodup_cons.mp distinct).1
  | stale | raise => exact List.not_mem_nil

/-- A step of the worker to a held delivery starts from none. -/
theorem Worker.Step.not_held (step : Worker.Step storage settings db action worker later next)
    (held : later.heldId = some eventId) : worker.heldId ≠ some eventId := by
  cases step with
  | call => exact fun same => by cases same
  | poll | absent | orphan | deliver | stale | raise | rest => cases held

end Worker

/-- The end of an attempt of this event has an outcome. -/
def Process.attemptEnds (process : Process) (eventId : String) : Action → Option CallOutcome
  | .deliver outcome _ _ => if process.worker.heldId = some eventId then some outcome else none
  | .arrive _ _ | .advance _ | .resume _ _ _ | .poll _ | .take _ | .rest | .crash => none

/-- A step leaves an entry alone, changes an entry that was not released, or ends an attempt. -/
inductive Process.EntryStep (settings : Settings) (process after : Process) (action : Action)
    (eventId : String) : Prop where
  | kept (other : process.attemptEnds eventId action = none)
      (same : after.db.entry eventId = process.db.entry eventId)
  | fresh (other : process.attemptEnds eventId action = none)
      (unreleased : ¬ (process.db.entry eventId).Released)
      (first : ∀ delivery, (after.db.entry eventId).delivery = some delivery →
        delivery.attemptCount = 0)
  | attempted (outcome : CallOutcome) (now : Rat) (draw : Draw)
      (delivers : action = .deliver outcome now draw)
      (held : process.worker.heldId = some eventId)
      (changed : after.db.entry eventId =
        (process.db.entry eventId).attempted settings ⟨outcome, now, draw⟩)

section Entries

/-- A delivery that enters the queue has no failed attempts. -/
theorem Entry.Move.first {before entry : Entry} (move : Entry.Move storage before entry)
    (empty : before.delivery = none) {delivery : PendingDelivery}
    (queued : entry.delivery = some delivery) : delivery.attemptCount = 0 := by
  cases move with
  | insert | settle => cases queued
  | queue =>
      obtain rfl := Option.some.inj queued
      rfl
  | reschedule | dequeue => cases empty

/-- A submit changes only entries that are not released, and a delivery that it adds has no failed
attempts. -/
theorem Submit.Effect.entryStep {i : Nat} {submit : Submit}
    (consistent : process.Consistent storage) (submits : action.call = some i)
    (effect : Submit.Effect storage settings process.db after.db i action (process.submits i)
      submit)
    (eventId : String) : process.EntryStep settings after action eventId := by
  have other : process.attemptEnds eventId action = none := by
    cases action with
    | deliver => cases submits
    | arrive | advance | resume | poll | take | rest | crash => rfl
  by_cases released : (process.db.entry eventId).Released
  · exact .kept other (effect.released released)
  · cases effect with
    | silent _ same => exact .kept other (same eventId)
    | insert submission absent _ _ _ changed =>
        by_cases own : eventId = submission.command.eventId
        · refine .fresh other released fun delivery queued => ?_
          have empty := (consistent.valid eventId).absent (own ▸ absent)
          rw [changed, if_pos own] at queued
          cases (congrArg Entry.delivery empty).symm.trans queued
        · exact .kept other ((changed eventId).trans (if_neg own))
    | settle submission entry _ _ _ move _ _ changed =>
        by_cases own : eventId = submission.command.eventId
        · refine .fresh other released fun delivery queued => ?_
          rw [changed, if_pos own] at queued
          exact move.first rfl queued
        · exact .kept other ((changed eventId).trans (if_neg own))

/-- The end of an attempt changes the entry of the event that the worker holds and no other. -/
theorem Worker.Step.endsAttempt {outcome : CallOutcome} {draw : Draw}
    (consistent : process.Consistent storage)
    (step : Worker.Step storage settings process.db (.deliver outcome now draw) process.worker later
      next) :
    ∃ eventId, process.worker.heldId = some eventId ∧ ∀ other, next.entry other =
      if other = eventId then (process.db.entry other).attempted settings ⟨outcome, now, draw⟩
      else process.db.entry other := by
  obtain ⟨delivery, event, traceId, remaining, processed, worker, _, changed⟩ :=
    step.attempted consistent.valid consistent.current
  exact ⟨delivery.eventId, by rw [worker]; rfl, changed⟩

/-- The worker changes the entry whose attempt it ends. -/
theorem Worker.Step.entryStep (consistent : process.Consistent storage)
    (step : Worker.Step storage settings process.db action process.worker after.worker after.db)
    (eventId : String) : process.EntryStep settings after action eventId := by
  cases action with
  | deliver outcome now draw =>
      obtain ⟨ended, held, changed⟩ := step.endsAttempt consistent
      by_cases own : eventId = ended
      · exact .attempted outcome now draw rfl (own ▸ held) ((changed eventId).trans (if_pos own))
      · refine .kept (if_neg fun same => own ?_) ((changed eventId).trans (if_neg own))
        exact Option.some.inj (same.symm.trans held)
  | poll | take | rest | crash =>
      refine .kept rfl ?_
      cases step.effect consistent.valid consistent.current with
      | silent _ same | call _ _ _ _ same => exact same eventId
      | deliver _ _ _ _ _ _ _ status =>
          obtain ⟨_, _, _, delivers, _⟩ := status
          cases delivers
  | arrive | advance | resume => cases step

/-- Every step of the process does one of these to an entry. -/
theorem Process.Consistent.entryStep (consistent : process.Consistent storage)
    (taken : process.step storage settings action = some after) (eventId : String) :
    process.EntryStep settings after action eventId := by
  rcases Process.step_cases taken with ⟨i, submit, step, _⟩ | ⟨step, _⟩ | ⟨rfl, rfl⟩
  · exact (step.effect (consistent.owns i)).entryStep consistent step.call_eq eventId
  · exact step.entryStep consistent eventId
  · exact .kept rfl rfl

end Entries

def CallOutcome.fails : CallOutcome → Bool
  | .unavailable _ => true
  | .response _ | .raised => false

/-- The worker records the end of an attempt unless an exception escapes. -/
def CallOutcome.recorded : CallOutcome → Bool
  | .unavailable _ | .response _ => true
  | .raised => false

/-- An attempt of this event starts when the worker takes its delivery. -/
def StartsDelivery (eventId : String) (step : ClockedStep) : Prop :=
  step.before.state.worker.heldId ≠ some eventId ∧
    step.after.state.worker.heldId = some eventId

/-- An attempt of this event finds the downstream unavailable. -/
def failsDelivery (eventId : String) (step : ClockedStep) : Bool :=
  (step.before.state.attemptEnds eventId step.action.action).any CallOutcome.fails

/-- An attempt of this event ends and is recorded. -/
def endsDelivery (eventId : String) (step : ClockedStep) : Bool :=
  (step.before.state.attemptEnds eventId step.action.action).any CallOutcome.recorded

def failedAttempts (eventId : String) (trace : ClockedTrace) : Nat :=
  trace.countP (failsDelivery eventId)

/-- A delivery counts the failed attempts of its event, which has none before its release. -/
structure Process.Counts (process : Process) (eventId : String) (failed : Nat) : Prop where
  unreleased : ¬ (process.db.entry eventId).Released → failed = 0
  counted : ∀ delivery, (process.db.entry eventId).delivery = some delivery →
    delivery.attemptCount = failed

section Counts
variable {start : Rat} {first last : Clocked Process Rat} {trace : ClockedTrace}

/-- The worker holds a delivery of a queued event. -/
theorem Process.Consistent.held (consistent : process.Consistent storage)
    (held : process.worker.heldId = some eventId) :
    ∃ event delivery, process.db.entry eventId = ⟨some event, some delivery⟩ ∧
      event.processingStatus = .queued := by
  obtain ⟨⟨delivery, event⟩, holds, rfl⟩ := Option.map_eq_some_iff.mp held
  obtain ⟨own, entry⟩ := consistent.current delivery event holds
  refine ⟨event, delivery, own ▸ entry, ?_⟩
  exact Entry.Valid.queued (entry ▸ consistent.valid event.eventId)

theorem Process.Consistent.released (consistent : process.Consistent storage)
    (held : process.worker.heldId = some eventId) : (process.db.entry eventId).Released := by
  obtain ⟨event, delivery, entry, queued⟩ := consistent.held held
  exact ⟨event, by rw [entry], by rw [queued]; decide⟩

/-- A step adds at most one failed attempt to the count. -/
theorem Process.Counts.step {failed : Nat} (consistent : process.Consistent storage)
    (counts : process.Counts eventId failed)
    (step : process.EntryStep settings after action eventId) :
    after.Counts eventId
      (failed + if (process.attemptEnds eventId action).any CallOutcome.fails then 1 else 0) := by
  cases step with
  | kept other same =>
      rw [other]
      exact ⟨same ▸ counts.unreleased, same ▸ counts.counted⟩
  | fresh other unreleased first =>
      rw [other, counts.unreleased unreleased]
      exact ⟨fun _ => rfl, first⟩
  | attempted outcome now draw delivers held changed =>
      subst delivers
      obtain ⟨event, delivery, entry, _⟩ := consistent.held held
      have own := counts.counted delivery (by rw [entry])
      have released : ((process.db.entry eventId).attempted settings
          ⟨outcome, now, draw⟩).Released :=
        (consistent.released held).attempted _
      rw [attemptEnds, if_pos held]
      refine ⟨fun unreleased => absurd (changed ▸ released) unreleased, fun row queued => ?_⟩
      rw [changed, entry] at queued
      cases outcome with
      | response => cases queued
      | unavailable =>
          obtain rfl := Option.some.inj queued
          exact congrArg (· + 1) own
      | raised =>
          obtain rfl := Option.some.inj queued
          exact own

/-- In every run the delivery of an event counts its failed attempts. -/
theorem counts_of_runs (runs : (clockedGateway storage settings start).Runs
      (clockedGateway storage settings start).initial last trace) (eventId : String) :
    last.state.Counts eventId (failedAttempts eventId trace) := by
  induction runs with
  | refl => exact ⟨fun _ => rfl, fun _ queued => by cases queued⟩
  | @step state next trace timed earlier taken ih =>
      have consistent := consistent_of_reachable (earlier.reachable .initial).unclocked
      have step := consistent.entryStep (Machine.step_clocked taken).1 eventId
      have counts := ih.step consistent step
      have latest : failedAttempts eventId (trace ++ [⟨state, timed, next⟩]) =
          failedAttempts eventId trace +
            if failsDelivery eventId ⟨state, timed, next⟩ then 1 else 0 := by
        rw [failedAttempts, List.countP_append, List.countP_singleton, failedAttempts]
      rw [latest]
      exact counts

/-- A worker that holds a delivery has held it since it started the attempt. -/
theorem started_of_held (runs : (clockedGateway storage settings start).Runs
      (clockedGateway storage settings start).initial last trace)
    (held : last.state.worker.heldId = some eventId) :
    ∃ started ∈ trace, StartsDelivery eventId started ∧
      started.after.state.worker = last.state.worker := by
  induction runs with
  | refl => cases held
  | @step state next trace timed earlier taken ih =>
      have before (same : next.state.worker = state.state.worker) : ∃ started ∈
          trace ++ [⟨state, timed, next⟩], StartsDelivery eventId started ∧
            started.after.state.worker = next.state.worker := by
        obtain ⟨started, member, starts, kept⟩ := ih (same ▸ held)
        exact ⟨started, List.mem_append_left _ member, starts, kept.trans same.symm⟩
      rcases Process.step_cases (Machine.step_clocked taken).1 with
        ⟨_, _, _, _, worker⟩ | ⟨step, _⟩ | ⟨_, crashed⟩
      · exact before worker
      · exact ⟨_, List.mem_append_right _ (List.mem_singleton_self _),
          ⟨step.not_held held, held⟩, rfl⟩
      · rw [crashed] at held
        cases held

/-- An entry stays as it is until an attempt of its event ends and is recorded. -/
theorem entry_of_quiet (runs : (clockedGateway storage settings start).Runs first last trace)
    (reached : (clockedGateway storage settings start).Reachable first)
    (released : (first.state.db.entry eventId).Released)
    (quiet : ∀ step ∈ trace, endsDelivery eventId step = false) :
    last.state.db.entry eventId = first.state.db.entry eventId := by
  induction runs with
  | refl => rfl
  | @step state next trace timed earlier taken ih =>
      have same := ih fun step member => quiet step (List.mem_append_left _ member)
      have silent := quiet _ (List.mem_append_right trace List.mem_cons_self)
      have consistent := consistent_of_reachable (earlier.reachable reached).unclocked
      cases consistent.entryStep (Machine.step_clocked taken).1 eventId with
      | kept _ kept => exact kept.trans same
      | fresh _ unreleased => exact absurd (same ▸ released) unreleased
      | attempted outcome now draw delivers held changed =>
          rw [endsDelivery, delivers, Process.attemptEnds, if_pos held] at silent
          cases outcome with
          | response | unavailable => cases silent
          | raised => exact changed.trans same

end Counts

section Waits
variable {start time : Rat} {first next : Clocked Process Rat} {timed : Timed Action Rat}

/-- The worker has each event id at most once before it. -/
theorem ahead_nodup (reached : (gateway storage settings).Reachable process) :
    process.worker.ahead.Nodup := by
  refine reached.invariant (fun process => process.worker.ahead.Nodup) .nil ?_
  intro before action next _ distinct taken
  rcases Process.step_cases taken with ⟨_, _, _, _, worker⟩ | ⟨step, _⟩ | ⟨_, rfl⟩
  · exact worker ▸ distinct
  · rcases step.ahead with ⟨now, _, due⟩ | fewer
    · exact due ▸ dueEventIds_nodup
    · exact fewer.nodup distinct
  · exact .nil

/-- No attempt of an event starts before a time. -/
structure WaitsUntil (time : Rat) (eventId : String) (clocked : Clocked Process Rat) : Prop where
  released : (clocked.state.db.entry eventId).Released
  row : ∀ delivery, (clocked.state.db.entry eventId).delivery = some delivery →
    time ≤ delivery.nextAttemptAt ∨ time ≤ clocked.now
  ahead : eventId ∈ clocked.state.worker.ahead → time ≤ clocked.now

/-- A wait that has not ended goes on, because every pass takes only deliveries that are due. -/
theorem WaitsUntil.step (consistent : first.state.Consistent storage)
    (waits : WaitsUntil time eventId first)
    (taken : (clockedGateway storage settings start).step first timed = some next) :
    WaitsUntil time eventId next := by
  obtain ⟨stepped, order, now, reading⟩ := Machine.step_clocked taken
  have later (ended : time ≤ first.now) : time ≤ next.now := by linarith
  have entry := consistent.entryStep stepped eventId
  refine ⟨?_, fun delivery queued => ?_, fun member => ?_⟩
  · cases entry with
    | kept _ same => exact same ▸ waits.released
    | fresh _ unreleased => exact absurd waits.released unreleased
    | attempted _ _ _ _ _ changed => exact changed ▸ waits.released.attempted _
  · cases entry with
    | kept _ same => exact (waits.row delivery (same ▸ queued)).imp_right later
    | fresh _ unreleased => exact absurd waits.released unreleased
    | attempted _ _ _ _ held => exact .inr (later (waits.ahead (Worker.mem_ahead_of_heldId held)))
  · rcases Process.step_cases stepped with ⟨_, _, _, _, worker⟩ | ⟨step, _⟩ | ⟨_, crashed⟩
    · exact later (waits.ahead (worker ▸ member))
    · rcases step.ahead with ⟨polled, polls, due⟩ | fewer
      -- The query compares the row with the clock, so a row that still waits is not in the pass.
      · obtain ⟨delivery, queued, come⟩ := delivery_of_due (due ▸ member)
        have same := reading polled (by rw [polls]; rfl)
        rcases waits.row delivery queued with waiting | ended
        · linarith
        · exact later ended
      · exact later (waits.ahead (fewer.subset member))
    · rw [crashed] at member
      cases member

/-- Every attempt that starts in a run from a wait starts after its end. -/
theorem WaitsUntil.starts {last : Clocked Process Rat} {trace : ClockedTrace}
    (runs : (clockedGateway storage settings start).Runs first last trace)
    (reached : (clockedGateway storage settings start).Reachable first)
    (waits : WaitsUntil time eventId first) :
    WaitsUntil time eventId last ∧
      ∀ step ∈ trace, StartsDelivery eventId step → time ≤ step.action.now := by
  induction runs with
  | refl => exact ⟨waits, fun _ member => by cases member⟩
  | step timed earlier taken ih =>
      obtain ⟨waiting, spaced⟩ := ih
      have consistent := consistent_of_reachable (earlier.reachable reached).unclocked
      have after := waiting.step consistent taken
      refine ⟨after, fun step member starts => ?_⟩
      rcases List.mem_append.mp member with old | new
      · exact spaced step old starts
      · obtain rfl := List.mem_singleton.mp new
        rw [← (Machine.step_clocked taken).2.2.1]
        exact after.ahead (Worker.mem_ahead_of_heldId starts.2)

end Waits

section Due
variable {deliveries : Table PendingDelivery.eventId} {limit : Int} {delivery : PendingDelivery}

/-- A due delivery is read when the limit leaves room for all deliveries. -/
theorem mem_dueEventIds (queued : deliveries.get eventId = some delivery)
    (room : limit < 0 ∨ (deliveries.rows.length : Int) ≤ limit)
    (due : delivery.nextAttemptAt ≤ now) :
    eventId ∈ dueEventIds deliveries limit now := by
  obtain ⟨stored, rfl⟩ := Table.get_eq_some.mp queued
  have sorted : delivery ∈ (deliveries.rows.filter fun row =>
      decide (row.nextAttemptAt ≤ now)).insertionSort PendingDelivery.before :=
    (List.perm_insertionSort _ _).mem_iff.mpr (List.mem_filter.mpr ⟨stored, decide_eq_true due⟩)
  refine List.mem_map_of_mem ?_
  split
  · exact sorted
  next bounded =>
    rw [List.take_of_length_le]
    · exact sorted
    · rw [List.length_insertionSort]
      exact (List.length_filter_le _ _).trans (by omega)

/-- A delivery is not read before its time. -/
theorem not_mem_dueEventIds (queued : deliveries.get eventId = some delivery)
    (early : now < delivery.nextAttemptAt) : eventId ∉ dueEventIds deliveries limit now := by
  intro member
  obtain ⟨other, found, due⟩ := delivery_of_due member
  obtain rfl := Option.some.inj (queued.symm.trans found)
  exact absurd due (not_le.mpr early)

end Due

/-- A failed attempt puts the next one off for its backoff and leaves the other events alone. -/
structure SpacesRetries (settings : Settings) (eventId : String) (attemptCount : Nat)
    (earlier : ClockedTrace) (failed : ClockedStep) (later : ClockedTrace)
    (last : Clocked Process Rat) : Prop where
  started : ∃ started ∈ earlier, StartsDelivery eventId started ∧
    started.after.state.worker = failed.before.state.worker ∧
      started.action.now ≤ failed.action.now
  recorded : ∃ delivery, failed.after.state.db.deliveries.get eventId = some delivery ∧
    delivery.attemptCount = attemptCount
  spaced : ∀ next ∈ later, StartsDelivery eventId next →
    failed.action.now + backoffBound settings attemptCount ≤ next.action.now
  waits : (∀ step ∈ later, endsDelivery eventId step = false) → ∀ time limit,
    time < failed.action.now + backoffBound settings attemptCount →
      eventId ∉ dueEventIds last.state.db.deliveries limit time
  due : (∀ step ∈ later, endsDelivery eventId step = false) → ∀ time limit,
    (limit < 0 ∨ (last.state.db.deliveries.rows.length : Int) ≤ limit) →
    failed.action.now + backoffBound settings attemptCount +
        settings.asyncFallbackJitterSeconds ≤ time →
      eventId ∈ dueEventIds last.state.db.deliveries limit time
  others : ∀ other, other ≠ eventId →
    failed.after.state.db.entry other = failed.before.state.db.entry other

section Retries
variable {start : Rat} {last : Clocked Process Rat} {earlier later : ClockedTrace}
  {failed : ClockedStep}

/-- A failed attempt is the end of a call that found the downstream unavailable. -/
theorem unavailable_of_fails (fails : failsDelivery eventId failed = true) :
    failed.before.state.worker.heldId = some eventId ∧
      ∃ message now draw, failed.action.action = .deliver (.unavailable message) now draw := by
  rw [failsDelivery] at fails
  cases delivers : failed.action.action with
  | deliver outcome now draw =>
      rw [delivers, Process.attemptEnds] at fails
      split at fails
      · next held =>
          cases outcome with
          | unavailable message => exact ⟨held, message, now, draw, rfl⟩
          | response | raised => cases fails
      · cases fails
  | arrive | advance | resume | poll | take | rest | crash =>
      rw [delivers] at fails
      cases fails

/-- The end of an attempt changes the entry of its event only. -/
theorem Process.Consistent.attempted {outcome : CallOutcome} {draw : Draw}
    (consistent : process.Consistent storage)
    (taken : process.step storage settings (.deliver outcome now draw) = some after)
    (held : process.worker.heldId = some eventId) :
    (∀ other, after.db.entry other =
      if other = eventId then (process.db.entry other).attempted settings ⟨outcome, now, draw⟩
      else process.db.entry other) ∧
    (process.worker.ahead.Nodup → eventId ∉ after.worker.ahead) := by
  rcases Process.step_cases taken with ⟨_, _, step, _⟩ | ⟨step, _⟩ | ⟨other, _⟩
  · cases step.call_eq
  · obtain ⟨ended, holds, changed⟩ := step.endsAttempt consistent
    obtain rfl := Option.some.inj (holds.symm.trans held)
    exact ⟨changed, fun distinct => step.not_mem_ahead distinct held⟩
  · cases other

/-- A failed attempt is recorded in its row with the time of the next one. -/
theorem Process.Consistent.rescheduled {message : String} {draw : Draw} {failed : Nat}
    (nonnegative : settings.NonnegativeBackoff) (consistent : process.Consistent storage)
    (taken : process.step storage settings (.deliver (.unavailable message) now draw) = some after)
    (held : process.worker.heldId = some eventId) (counts : process.Counts eventId failed) :
    (after.db.entry eventId).Released ∧ ∃ row, after.db.deliveries.get eventId = some row ∧
      row.attemptCount = failed + 1 ∧
      now + backoffBound settings (failed + 1) ≤ row.nextAttemptAt ∧
      row.nextAttemptAt ≤
        now + backoffBound settings (failed + 1) + settings.asyncFallbackJitterSeconds := by
  obtain ⟨event, delivery, entry, queued⟩ := consistent.held held
  obtain rfl := counts.counted delivery (by rw [entry])
  have changed := ((consistent.attempted taken held).1 eventId).trans (if_pos rfl)
  rw [entry] at changed
  obtain ⟨low, high⟩ := backoffSeconds_spec nonnegative (delivery.attemptCount + 1) draw
  refine ⟨⟨event, by rw [changed]; rfl, by rw [queued]; decide⟩, _,
    congrArg Entry.delivery changed, rfl, ?_, ?_⟩
  · exact add_le_add_right low now
  · rw [add_assoc]
    exact add_le_add_right high now

/-- Each failed attempt of a queued delivery puts the next one off for its backoff. -/
theorem retries_spaced (nonnegative : settings.NonnegativeBackoff)
    (runs : (clockedGateway storage settings start).Runs
      (clockedGateway storage settings start).initial last (earlier ++ failed :: later))
    (fails : failsDelivery eventId failed = true) :
    SpacesRetries settings eventId (failedAttempts eventId (earlier ++ [failed])) earlier failed
        later last ∧
      Monotone (backoffBound settings) ∧
        ∀ attemptCount,
          backoffBound settings attemptCount ≤ settings.asyncFallbackMaxBackoffSeconds := by
  refine ⟨?_, backoffBound_mono nonnegative, backoffBound_le_max settings⟩
  obtain ⟨before, taken, rest⟩ := runs.split
  obtain ⟨held, message, now, draw, delivers⟩ := unavailable_of_fails fails
  obtain ⟨stepped, order, _, reading⟩ := Machine.step_clocked taken
  obtain rfl : now = failed.action.now := reading now (by rw [delivers]; rfl)
  rw [delivers] at stepped
  have reached := before.reachable .initial
  have consistent := consistent_of_reachable reached.unclocked
  have counted : failedAttempts eventId (earlier ++ [failed]) =
      failedAttempts eventId earlier + 1 := by
    rw [failedAttempts, List.countP_append, List.countP_singleton, if_pos fails, failedAttempts]
  obtain ⟨released, row, stored, count, low, high⟩ :=
    consistent.rescheduled nonnegative stepped held (counts_of_runs before eventId)
  obtain ⟨changed, ahead⟩ := consistent.attempted stepped held
  -- The pass of the failed attempt does not meet the event again, and later passes read its row.
  have waits : WaitsUntil (failed.action.now +
      backoffBound settings (failedAttempts eventId earlier + 1)) eventId failed.after := by
    refine ⟨released, fun other found => .inl ?_, fun member => ?_⟩
    · obtain rfl := Option.some.inj (stored.symm.trans found)
      exact low
    · exact absurd member (ahead (ahead_nodup reached.unclocked))
  have reachedAfter := reached.step failed.action taken
  have kept (quiet : ∀ step ∈ later, endsDelivery eventId step = false) :
      last.state.db.deliveries.get eventId = some row :=
    (congrArg Entry.delivery (entry_of_quiet rest reachedAfter released quiet)).trans stored
  rw [counted]
  refine ⟨?_, ⟨row, stored, count⟩, (waits.starts rest reachedAfter).2, ?_, ?_, ?_⟩
  · obtain ⟨started, member, starts, same⟩ := started_of_held before held
    exact ⟨started, member, starts, same, (before.now_le_of_mem member).trans order⟩
  · intro quiet time limit early
    exact not_mem_dueEventIds (kept quiet) (early.trans_le low)
  · intro quiet time limit room late
    exact mem_dueEventIds (kept quiet) room (high.trans late)
  · intro other different
    exact (changed other).trans (if_neg different)

/-- An event is queued, its first attempt fails, and the second one starts after its backoff. -/
def failsOnce : List (Timed Action Rat) :=
  [⟨.arrive 0 ⟨creditX.event, "trace"⟩, 0⟩, ⟨.advance 0, 0⟩, ⟨.advance 0, 0⟩, ⟨.advance 0, 1⟩,
    ⟨.resume 0 (.unavailable "timeout") 2, 2⟩, ⟨.poll 2, 2⟩, ⟨.take "fresh", 2⟩,
    ⟨.deliver (.unavailable "timeout") 3 .zero, 3⟩, ⟨.rest, 3⟩, ⟨.poll 5, 5⟩, ⟨.take "fresh", 5⟩]

def unavailableAgain : Timed Action Rat := ⟨.deliver (.unavailable "timeout") 6 .zero, 6⟩

def attemptedAgain : List (Timed Action Rat) := [⟨.rest, 6⟩, ⟨.poll 9, 9⟩, ⟨.take "fresh", 9⟩]

/-- The second failed attempt puts the third one off for two seconds. -/
theorem retries_spaced_twice : ∃ earlier failed later last,
    (clockedGateway .wallClock .default 0).Runs (clockedGateway .wallClock .default 0).initial last
      (earlier ++ failed :: later) ∧
    failedAttempts "x" (earlier ++ [failed]) = 2 ∧
    SpacesRetries .default "x" 2 earlier failed later last := by
  obtain ⟨last, ran⟩ := Option.isSome_iff_exists.mp
    (show ((clockedGateway .wallClock .default 0).run (clockedGateway .wallClock .default 0).initial
      (failsOnce ++ unavailableAgain :: attemptedAgain)).isSome by decide +kernel)
  have observed : ((clockedGateway .wallClock .default 0).run
      (clockedGateway .wallClock .default 0).initial failsOnce).map (fun first =>
        ((first.state.db.entry "x").delivery.map PendingDelivery.attemptCount,
          first.state.worker.heldId)) = some (some 1, some "x") := by decide +kernel
  rw [Machine.run_append] at ran
  obtain ⟨first, once, ran⟩ := Option.bind_eq_some_iff.mp ran
  obtain ⟨next, taken, again⟩ := Option.bind_eq_some_iff.mp ran
  rw [once] at observed
  obtain ⟨counted, held⟩ := Prod.mk.inj (Option.some.inj observed)
  obtain ⟨delivery, queued, one⟩ := Option.map_eq_some_iff.mp counted
  obtain ⟨earlier, before⟩ := Machine.exists_runs once
  obtain ⟨later, after⟩ := Machine.exists_runs again
  have fails : failsDelivery "x" ⟨first, unavailableAgain, next⟩ = true := by
    rw [failsDelivery, unavailableAgain, Process.attemptEnds, if_pos held]
    rfl
  have two : failedAttempts "x" (earlier ++ [⟨first, unavailableAgain, next⟩]) = 2 := by
    rw [failedAttempts, List.countP_append, List.countP_singleton, if_pos fails,
      ← failedAttempts, ← (counts_of_runs before "x").counted delivery queued, one]
  have runs := (before.step unavailableAgain taken).append after
  rw [List.append_assoc] at runs
  have spaced := (retries_spaced ⟨by decide +kernel, by decide +kernel,
    by decide +kernel⟩ runs fails).1
  rw [two] at spaced
  exact ⟨earlier, ⟨first, unavailableAgain, next⟩, later, last, runs, two, spaced⟩

end Retries
end EventLedger.EventGateway
