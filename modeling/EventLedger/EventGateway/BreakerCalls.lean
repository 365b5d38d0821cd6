import EventLedger.EventGateway.SharedClient
import EventLedger.Library.Lists
import Mathlib.Data.List.DropRight
import Mathlib.Tactic.Linarith

namespace EventLedger.EventGateway
open Library

variable {settings : Settings} {breaker last : CircuitBreaker}

/-- A call asks the breaker or reports a success or a failure to it. -/
inductive BreakerCall where
  | allow (now : Rat)
  | success (now : Rat)
  | failure (now : Rat)

namespace BreakerCall

def now : BreakerCall → Rat
  | .allow now | .success now | .failure now => now

def succeeds : BreakerCall → Bool
  | .success _ => true
  | .allow _ | .failure _ => false

def failedAt : BreakerCall → Option Rat
  | .failure now => some now
  | .allow _ | .success _ => none

end BreakerCall

/-- A fresh breaker takes one call after the other. -/
def circuitBreaker (settings : Settings) : Machine CircuitBreaker BreakerCall where
  initial := .closed
  step breaker
    | .allow _ => some breaker
    | .success _ => some breaker.success
    | .failure now => some (breaker.failure settings now)

/-- The calls come at times that never decrease. -/
def CallsInOrder (trace : Trace CircuitBreaker BreakerCall) : Prop :=
  trace.Pairwise fun first second => first.action.now ≤ second.action.now

/-- The times of the failures are read in the order of the calls. -/
def failureTimes (trace : Trace CircuitBreaker BreakerCall) : List Rat :=
  trace.filterMap fun transition => transition.action.failedAt

/-- The calls since the last success, or since the start. -/
def sinceSuccess (trace : Trace CircuitBreaker BreakerCall) : Trace CircuitBreaker BreakerCall :=
  trace.rtakeWhile fun transition => !transition.action.succeeds

/-- The history opens the circuit with enough failures since the last success and a recent one. -/
def OpenedBy (settings : Settings) (trace : Trace CircuitBreaker BreakerCall) (now : Rat) : Prop :=
  settings.circuitBreakerFailureThreshold ≤ (failureTimes (sinceSuccess trace)).length ∧
    ∃ failedAt, (failureTimes trace).getLast? = some failedAt ∧
      now - failedAt < settings.circuitBreakerRecoverySeconds

section History
variable {trace earlier later : Trace CircuitBreaker BreakerCall}
  {transition : Transition CircuitBreaker BreakerCall}

theorem failureTimes_append :
    failureTimes (earlier ++ later) = failureTimes earlier ++ failureTimes later :=
  List.filterMap_append

theorem sinceSuccess_of_success (succeeds : transition.action.succeeds) :
    sinceSuccess (trace ++ [transition]) = [] :=
  List.rtakeWhile_concat_neg _ _ _ (by simp [succeeds])

theorem sinceSuccess_of_other (other : transition.action.succeeds = false) :
    sinceSuccess (trace ++ [transition]) = sinceSuccess trace ++ [transition] :=
  List.rtakeWhile_concat_pos _ _ _ (by simp [other])

/-- Calls without a success are all counted. -/
theorem sinceSuccess_append (silent : ∀ transition ∈ later, transition.action.succeeds = false) :
    sinceSuccess (earlier ++ later) = sinceSuccess earlier ++ later := by
  induction later using List.reverseRecOn with
  | nil => rw [List.append_nil, List.append_nil]
  | append_singleton rest latest ih =>
      obtain ⟨before, own⟩ := List.forall_mem_append.mp silent
      rw [← List.append_assoc, sinceSuccess_of_other (own latest (List.mem_singleton_self _)),
        ih before, List.append_assoc]

/-- No call before a success is counted. -/
theorem sinceSuccess_length_le (succeeds : transition.action.succeeds) :
    (failureTimes (sinceSuccess (earlier ++ transition :: later))).length ≤
      (failureTimes later).length := by
  induction later using List.reverseRecOn with
  | nil => rw [sinceSuccess_of_success succeeds]
  | append_singleton rest latest ih =>
      rw [← List.cons_append, ← List.append_assoc]
      cases own : latest.action.succeeds with
      | true =>
          rw [sinceSuccess_of_success own]
          exact Nat.zero_le _
      | false =>
          rw [sinceSuccess_of_other own, failureTimes_append, failureTimes_append,
            List.length_append, List.length_append]
          exact Nat.add_le_add_right ih _

end History

/-- The fields of the breaker tell its history. -/
structure KeepsCalls (settings : Settings) (breaker : CircuitBreaker)
    (trace : Trace CircuitBreaker BreakerCall) : Prop where
  failures : breaker.failures = (failureTimes (sinceSuccess trace)).length
  openedAt : breaker.openedAt =
    if settings.circuitBreakerFailureThreshold ≤ breaker.failures then (failureTimes trace).getLast?
    else none

section Calls
variable {trace earlier between later : Trace CircuitBreaker BreakerCall}

/-- Every call keeps the fields telling the history. -/
theorem KeepsCalls.step {call : BreakerCall} {next : CircuitBreaker}
    (positive : 1 ≤ settings.circuitBreakerFailureThreshold)
    (kept : KeepsCalls settings breaker trace)
    (taken : (circuitBreaker settings).step breaker call = some next) :
    KeepsCalls settings next (trace ++ [⟨breaker, call, next⟩]) := by
  obtain ⟨failures, openedAt⟩ := kept
  cases call with
  | allow now =>
      obtain rfl := Option.some.inj taken
      have silent : failureTimes [⟨breaker, .allow now, breaker⟩] = [] := rfl
      constructor
      · rw [sinceSuccess_of_other rfl, failureTimes_append, silent, List.append_nil, failures]
      · rw [failureTimes_append, silent, List.append_nil, openedAt]
  | success now =>
      obtain rfl := Option.some.inj taken
      constructor
      · rw [sinceSuccess_of_success rfl]
        rfl
      · exact (if_neg (by simp [CircuitBreaker.success, CircuitBreaker.closed]; omega)).symm
  | failure now =>
      obtain rfl := Option.some.inj taken
      constructor
      · rw [sinceSuccess_of_other rfl, failureTimes_append, List.length_append, ← failures]
        rfl
      · have latest : (failureTimes (trace ++
            [⟨breaker, .failure now, breaker.failure settings now⟩])).getLast? = some now := by
          rw [failureTimes_append]
          exact List.getLast?_concat
        have opened : (breaker.failure settings now).openedAt =
            if settings.circuitBreakerFailureThreshold ≤ (breaker.failure settings now).failures
            then some now else breaker.openedAt := rfl
        have counted : (breaker.failure settings now).failures = breaker.failures + 1 := rfl
        rw [latest, opened, counted]
        by_cases enough : settings.circuitBreakerFailureThreshold ≤ (breaker.failures + 1 : Nat)
        · rw [if_pos enough, if_pos enough]
        · rw [if_neg enough, if_neg enough]
          exact openedAt.trans (if_neg (by omega))

theorem keepsCalls (positive : 1 ≤ settings.circuitBreakerFailureThreshold)
    (runs : (circuitBreaker settings).Runs .closed last trace) :
    KeepsCalls settings last trace := by
  induction runs with
  | refl => exact ⟨rfl, (if_neg (by simp [CircuitBreaker.closed]; omega)).symm⟩
  | step call runs taken ih => exact ih.step positive taken

/-- The breaker refuses a call exactly when its history has opened the circuit. -/
theorem KeepsCalls.allow_iff (kept : KeepsCalls settings breaker trace) (time : Rat) :
    breaker.allow settings time = false ↔ OpenedBy settings trace time := by
  rw [← Bool.not_eq_true, CircuitBreaker.allow_iff, not_not, CircuitBreaker.OpenAt, OpenedBy,
    kept.openedAt, ← kept.failures]
  by_cases enough : settings.circuitBreakerFailureThreshold ≤ breaker.failures
  · rw [if_pos enough, and_iff_right enough]
  · simp [enough]

/-- A failure after enough others keeps the circuit open for a full period without a success. -/
theorem openedBy_of_failure {failed : Transition CircuitBreaker BreakerCall} {failedAt time : Rat}
    (enough : settings.circuitBreakerFailureThreshold ≤
      (failureTimes (sinceSuccess earlier)).length)
    (failure : failed.action = .failure failedAt)
    (silent : ∀ call ∈ between, call.action.succeeds = false)
    (ordered : CallsInOrder (earlier ++ failed :: between))
    (early : time < failedAt + settings.circuitBreakerRecoverySeconds) :
    OpenedBy settings (earlier ++ failed :: between) time := by
  have counted : failureTimes (failed :: between) = failedAt :: failureTimes between := by
    simp [failureTimes, failure, BreakerCall.failedAt]
  have unsuccessful : ∀ call ∈ failed :: between, call.action.succeeds = false :=
    List.forall_mem_cons.mpr ⟨by rw [failure]; rfl, silent⟩
  obtain ⟨latest, found⟩ : ∃ latest, (failureTimes (failed :: between)).getLast? = some latest :=
    ⟨_, List.getLast?_eq_some_getLast (by rw [counted]; exact List.cons_ne_nil _ _)⟩
  have later : failedAt ≤ latest := by
    obtain ⟨call, member, own⟩ := List.mem_filterMap.mp (List.mem_of_getLast? found)
    rcases List.mem_cons.mp member with rfl | member
    · rw [failure] at own
      exact (Option.some.inj own).le
    · have order := List.rel_of_pairwise_cons (List.pairwise_append.mp ordered).2.1 member
      rw [failure] at order
      cases same : call.action with
      | failure now =>
          rw [same] at own order
          exact order.trans_eq (Option.some.inj own)
      | allow | success =>
          rw [same] at own
          cases own
  refine ⟨?_, latest, ?_, by linarith⟩
  · rw [sinceSuccess_append unsuccessful, failureTimes_append, List.length_append]
    omega
  · rw [failureTimes_append, List.getLast?_append, found, Option.some_or]

/-- The circuit stays closed while too few failures follow a success. -/
theorem not_openedBy_of_success {succeeded : Transition CircuitBreaker BreakerCall} {time : Rat}
    (success : succeeded.action.succeeds)
    (few : (failureTimes between).length < settings.circuitBreakerFailureThreshold) :
    ¬ OpenedBy settings (earlier ++ succeeded :: between) time := by
  rintro ⟨enough, -⟩
  have counted : (failureTimes (sinceSuccess (earlier ++ succeeded :: between))).length ≤
      (failureTimes between).length :=
    sinceSuccess_length_le success
  omega

/-- The breaker refuses calls exactly when its history has opened the circuit: one failure opens it
again for a full period after enough failures without a success, and a success closes it. -/
theorem breaker_follows_history (positive : 1 ≤ settings.circuitBreakerFailureThreshold)
    (runs : (circuitBreaker settings).Runs .closed last trace) (ordered : CallsInOrder trace) :
    (∀ earlier later asked now, trace = earlier ++ asked :: later → asked.action = .allow now →
      (asked.before.allow settings now = false ↔ OpenedBy settings earlier now)) ∧
    (∀ earlier between later failed asked failedAt now,
      trace = earlier ++ failed :: (between ++ asked :: later) →
      settings.circuitBreakerFailureThreshold ≤ (failureTimes (sinceSuccess earlier)).length →
      failed.action = .failure failedAt → asked.action = .allow now →
      (∀ call ∈ between, call.action.succeeds = false) →
      now < failedAt + settings.circuitBreakerRecoverySeconds →
      asked.before.allow settings now = false) ∧
    (∀ earlier between later succeeded asked now,
      trace = earlier ++ succeeded :: (between ++ asked :: later) →
      succeeded.action.succeeds → asked.action = .allow now →
      (failureTimes between).length < settings.circuitBreakerFailureThreshold →
      asked.before.allow settings now = true) := by
  have follows : ∀ earlier later asked, trace = earlier ++ asked :: later → ∀ time,
      (asked.before.allow settings time = false ↔ OpenedBy settings earlier time) := by
    rintro earlier later asked rfl time
    exact (keepsCalls positive runs.split.1).allow_iff time
  refine ⟨fun earlier later asked now whole _ => follows earlier later asked whole now, ?_, ?_⟩
  · rintro earlier between later failed asked failedAt now whole enough failure - silent early
    rw [← List.cons_append, ← List.append_assoc] at whole
    subst whole
    refine (follows _ later asked rfl now).mpr ?_
    exact openedBy_of_failure enough failure silent (List.pairwise_append.mp ordered).1 early
  · rintro earlier between later succeeded asked now whole success - few
    rw [← List.cons_append, ← List.append_assoc] at whole
    rw [← Bool.not_eq_false, follows _ later asked whole now]
    exact not_openedBy_of_success success few

end Calls

section Reopened

/-- Two failures open the circuit for ten seconds. -/
def twoFailures : Settings :=
  { Settings.default with
    circuitBreakerFailureThreshold := 2
    circuitBreakerRecoverySeconds := 10 }

def CircuitBreaker.takes (breaker : CircuitBreaker) (call : BreakerCall) :
    Transition CircuitBreaker BreakerCall :=
  ⟨breaker, call, ((circuitBreaker twoFailures).step breaker call).getD breaker⟩

def firstFailure : Transition CircuitBreaker BreakerCall :=
  CircuitBreaker.closed.takes (.failure 100)
def secondFailure : Transition CircuitBreaker BreakerCall := firstFailure.after.takes (.failure 100)
def recovered : Transition CircuitBreaker BreakerCall := secondFailure.after.takes (.allow 111)
def failsAgain : Transition CircuitBreaker BreakerCall := recovered.after.takes (.failure 111)
def askedEarly : Transition CircuitBreaker BreakerCall := failsAgain.after.takes (.allow 120)
def succeeded : Transition CircuitBreaker BreakerCall := askedEarly.after.takes (.success 120)
def askedAgain : Transition CircuitBreaker BreakerCall := succeeded.after.takes (.allow 120)

def reopenedCalls : Trace CircuitBreaker BreakerCall :=
  [firstFailure, secondFailure, recovered, failsAgain, askedEarly, succeeded, askedAgain]

theorem reopenedCalls_runs :
    (circuitBreaker twoFailures).Runs .closed askedAgain.after reopenedCalls := by
  have runs : (circuitBreaker twoFailures).Runs .closed askedAgain.after
      ([] ++ [firstFailure] ++ [secondFailure] ++ [recovered] ++ [failsAgain] ++ [askedEarly] ++
        [succeeded] ++ [askedAgain]) :=
    .step _ (.step _ (.step _ (.step _ (.step _ (.step _ (.step _ .refl rfl) rfl) rfl) rfl) rfl)
      rfl) rfl
  exact runs

theorem reopenedCalls_inOrder : CallsInOrder reopenedCalls := by
  simp [CallsInOrder, reopenedCalls, firstFailure, secondFailure, recovered, failsAgain, askedEarly,
    succeeded, askedAgain, CircuitBreaker.takes, BreakerCall.now]
  norm_num

/-- The circuit opens, lets a call through, opens again at one failure and is closed. -/
theorem breaker_follows_history_reopened :
    recovered.before.allow twoFailures 111 = true ∧
      askedEarly.before.allow twoFailures 120 = false ∧
      askedAgain.before.allow twoFailures 120 = true := by
  obtain ⟨follows, reopens, closes⟩ :=
    breaker_follows_history (by decide) reopenedCalls_runs reopenedCalls_inOrder
  refine ⟨?_, ?_, ?_⟩
  · rw [← Bool.not_eq_false, follows [firstFailure, secondFailure] _ recovered 111 rfl rfl]
    rintro ⟨-, failedAt, latest, recent⟩
    obtain rfl : 100 = failedAt := Option.some.inj latest
    norm_num [twoFailures] at recent
  · exact reopens [firstFailure, secondFailure, recovered] [] _ failsAgain askedEarly 111 120 rfl
      (by decide) rfl rfl (fun _ member => by cases member) (by norm_num [twoFailures])
  · exact closes [firstFailure, secondFailure, recovered, failsAgain, askedEarly] [] [] succeeded
      askedAgain 120 rfl rfl rfl (by decide)

end Reopened
end EventLedger.EventGateway
