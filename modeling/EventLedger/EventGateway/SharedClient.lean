import EventLedger.EventGateway.Request
import EventLedger.Library.Trace
import Mathlib.Logic.Function.Basic

namespace EventLedger.EventGateway
open Library

variable {settings : Settings}

/-- A call of the shared client is not started, at an attempt, asleep until a time, or finished. -/
inductive SharedCall where
  | idle
  | attempting (attempt : Nat)
  | sleeping (attempt : Nat) (wakeAt : Rat)
  | finished (outcome : CallOutcome)

/-- A call that goes to sleep wakes no earlier than its sleep says. -/
def SharedCall.enter (now : Rat) (draw : Draw) : ClientRequest → SharedCall
  | .attempting attempt => .attempting attempt
  | .sleeping attempt => .sleeping attempt (now + sleepSeconds attempt draw)
  | .finished outcome => .finished outcome

/-- Any number of calls share one breaker, and the clock reads the time of the last step. -/
structure SharedClient where
  now : Rat
  breaker : CircuitBreaker
  calls : Nat → SharedCall

/-- The calls of one client interleave at their attempts and at their sleeps. -/
inductive SharedAction where
  | request (call : Nat) (now : Rat)
  | ends (call : Nat) (outcome : AttemptOutcome) (now : Rat) (draw : Draw)
  | wake (call : Nat) (now : Rat)

namespace SharedClient

def setCall (client : SharedClient) (now : Rat) (breaker : CircuitBreaker) (i : Nat)
    (call : SharedCall) : SharedClient :=
  ⟨now, breaker, Function.update client.calls i call⟩

/-- The clock never runs backwards. -/
def step (settings : Settings) (client : SharedClient) : SharedAction → Option SharedClient
  | .request i now =>
      if client.now ≤ now then
        match client.calls i with
        | .idle => some (client.setCall now client.breaker i
            (.enter now .zero (ClientRequest.start settings client.breaker now)))
        | _ => none
      else none
  | .ends i outcome now draw =>
      if client.now ≤ now then
        match client.calls i with
        | .attempting attempt =>
            let (breaker, request) :=
              ClientRequest.attemptEnds settings client.breaker attempt now outcome
            some (client.setCall now breaker i (.enter now draw request))
        | _ => none
      else none
  | .wake i now =>
      if client.now ≤ now then
        match client.calls i with
        | .sleeping attempt wakeAt =>
            if wakeAt ≤ now then
              some (client.setCall now client.breaker i (.attempting (attempt + 1)))
            else none
        | _ => none
      else none

end SharedClient

/-- The client starts with a closed breaker and no calls. -/
def sharedClient (settings : Settings) : Machine SharedClient SharedAction where
  initial := ⟨0, .closed, fun _ => .idle⟩
  step := SharedClient.step settings

/-- A step starts an attempt when it leaves a call at an attempt where it was not before. -/
def StartsAttempt (transition : Transition SharedClient SharedAction) : Prop :=
  ∃ i attempt, transition.after.calls i = .attempting attempt ∧
    transition.before.calls i ≠ .attempting attempt

/-- The circuit is open while its recovery time has not passed. -/
def CircuitBreaker.OpenAt (settings : Settings) (breaker : CircuitBreaker) (now : Rat) : Prop :=
  ∃ openedAt, breaker.openedAt = some openedAt ∧
    now - openedAt < settings.circuitBreakerRecoverySeconds

/-- The breaker allows a call exactly when it is not open. -/
theorem CircuitBreaker.allow_iff (breaker : CircuitBreaker) (now : Rat) :
    breaker.allow settings now ↔ ¬ breaker.OpenAt settings now := by
  unfold allow OpenAt
  cases breaker.openedAt with
  | none => simp
  | some openedAt => simp

/-- In every run no attempt is started while the circuit is open. -/
def FailsFast (settings : Settings) : Prop :=
  ∀ last trace, (sharedClient settings).Runs (sharedClient settings).initial last trace →
    ∀ transition ∈ trace, StartsAttempt transition →
      ¬ transition.before.breaker.OpenAt settings transition.after.now

/-- This relation lists every step of the shared client. -/
inductive SharedClient.Step (settings : Settings) (client : SharedClient) : SharedClient → Prop where
  | request (i : Nat) (now : Rat) (idle : client.calls i = .idle) :
      Step settings client (client.setCall now client.breaker i
        (.enter now .zero (ClientRequest.start settings client.breaker now)))
  | ends (i attempt : Nat) (outcome : AttemptOutcome) (now : Rat) (draw : Draw)
      (attempts : client.calls i = .attempting attempt) :
      Step settings client (client.setCall now
        (ClientRequest.attemptEnds settings client.breaker attempt now outcome).1 i
        (.enter now draw
          (ClientRequest.attemptEnds settings client.breaker attempt now outcome).2))
  | wake (i attempt : Nat) (wakeAt now : Rat) (asleep : client.calls i = .sleeping attempt wakeAt) :
      Step settings client (client.setCall now client.breaker i (.attempting (attempt + 1)))

theorem SharedClient.step_cases {client next : SharedClient} {action : SharedAction}
    (taken : client.step settings action = some next) : client.Step settings next := by
  cases action with
  | request i now =>
      obtain ⟨_, taken⟩ := Option.ite_none_right_eq_some.mp taken
      split at taken
      · next idle =>
          obtain rfl := Option.some.inj taken
          exact .request i now idle
      · cases taken
  | ends i outcome now draw =>
      obtain ⟨_, taken⟩ := Option.ite_none_right_eq_some.mp taken
      split at taken
      · next attempt attempts =>
          obtain rfl := Option.some.inj taken
          exact .ends i attempt outcome now draw attempts
      · cases taken
  | wake i now =>
      obtain ⟨_, taken⟩ := Option.ite_none_right_eq_some.mp taken
      split at taken
      · next attempt wakeAt asleep =>
          obtain ⟨_, taken⟩ := Option.ite_none_right_eq_some.mp taken
          obtain rfl := Option.some.inj taken
          exact .wake i attempt wakeAt now asleep
      · cases taken

section Single

/-- A call that is set reads back, and all other calls stay. -/
theorem SharedClient.calls_setCall (client : SharedClient) (now : Rat) (breaker : CircuitBreaker)
    (i : Nat) (call : SharedCall) (j : Nat) :
    (client.setCall now breaker i call).calls j = if j = i then call else client.calls j :=
  Function.update_apply ..

/-- The end of an attempt finishes the call, or the call sleeps before another attempt. -/
theorem ClientRequest.attemptEnds_cases (settings : Settings) (breaker : CircuitBreaker)
    (attempt : Nat) (now : Rat) (outcome : AttemptOutcome) :
    (∃ ended, (attemptEnds settings breaker attempt now outcome).2 = .finished ended) ∨
      attempt + 1 < settings.accountServiceMaxAttempts ∧
        (attemptEnds settings breaker attempt now outcome).2 = .sleeping attempt := by
  have caught (message : String) :
      (∃ ended, (failed settings breaker attempt now message).2 = .finished ended) ∨
        attempt + 1 < settings.accountServiceMaxAttempts ∧
          (failed settings breaker attempt now message).2 = .sleeping attempt := by
    unfold failed
    split
    · exact .inl ⟨_, rfl⟩
    · exact .inr ⟨by omega, rfl⟩
  cases outcome with
  | response response =>
      simp only [attemptEnds]
      split
      · exact caught _
      · exact .inl ⟨_, rfl⟩
  | timeout message | connectError message => exact caught message
  | raised => exact .inl ⟨_, rfl⟩

/-- A call starts at its first attempt when the breaker allows it, or it is finished. -/
theorem ClientRequest.start_cases (settings : Settings) (breaker : CircuitBreaker) (now : Rat) :
    (∃ ended, start settings breaker now = .finished ended) ∨
      breaker.allow settings now ∧ start settings breaker now = .attempting 0 := by
  unfold start
  split
  · next allowed =>
      split
      · exact .inr ⟨allowed, rfl⟩
      · exact .inl ⟨_, rfl⟩
  · exact .inl ⟨_, rfl⟩

/-- No call sleeps when it has at most one attempt. -/
theorem awake_of_single (single : settings.accountServiceMaxAttempts ≤ 1) {client : SharedClient}
    (reached : (sharedClient settings).Reachable client) (i attempt : Nat) (wakeAt : Rat) :
    client.calls i ≠ .sleeping attempt wakeAt := by
  refine reached.invariant (fun client => ∀ i attempt wakeAt,
    client.calls i ≠ .sleeping attempt wakeAt) (fun _ _ _ => by simp [sharedClient])
    (fun client action next _ awake taken i attempt wakeAt => ?_) i attempt wakeAt
  cases SharedClient.step_cases taken with
  | request j now =>
      rw [SharedClient.calls_setCall]
      split
      · rcases ClientRequest.start_cases settings client.breaker now with ⟨ended, same⟩ | ⟨_, same⟩
        · simp [same, SharedCall.enter]
        · simp [same, SharedCall.enter]
      · exact awake i attempt wakeAt
  | ends j number outcome now draw =>
      rw [SharedClient.calls_setCall]
      split
      · rcases ClientRequest.attemptEnds_cases settings client.breaker number now outcome with
          ⟨ended, same⟩ | ⟨more, _⟩
        · simp [same, SharedCall.enter]
        · omega
      · exact awake i attempt wakeAt
  | wake j number earlier now asleep => exact absurd asleep (awake j number earlier)

/-- A client with at most one attempt asks the breaker before each attempt. -/
theorem failsFast_of_single (single : settings.accountServiceMaxAttempts ≤ 1) :
    FailsFast settings := by
  rintro last trace ran ⟨before, action, after⟩ member ⟨i, attempt, attempts, fresh⟩ isOpen
  obtain ⟨reached, taken⟩ := ran.transition .initial member
  have step : before.Step settings after := SharedClient.step_cases taken
  cases step with
  | request j now idle =>
      simp only [SharedClient.calls_setCall] at attempts
      split at attempts
      · rcases ClientRequest.start_cases settings before.breaker now with
          ⟨ended, same⟩ | ⟨allowed, _⟩
        · rw [same] at attempts
          cases attempts
        · exact (before.breaker.allow_iff now).mp allowed isOpen
      · exact fresh attempts
  | ends j number outcome now draw running =>
      simp only [SharedClient.calls_setCall] at attempts
      split at attempts
      · rcases ClientRequest.attemptEnds_cases settings before.breaker number now outcome with
          ⟨ended, same⟩ | ⟨_, same⟩
        · rw [same] at attempts
          cases attempts
        · rw [same] at attempts
          cases attempts
      · exact fresh attempts
  | wake j number wakeAt now asleep => exact awake_of_single single reached j number wakeAt asleep

end Single

section Several

/-- Some calls have started at time zero, and nothing has failed yet. -/
def SharedClient.started (k : Nat) : SharedClient :=
  ⟨0, .closed, fun i => if i < k then .attempting 0 else .idle⟩

/-- Any number of calls start at time zero, while the breaker is closed. -/
theorem started_runs (several : 2 ≤ settings.accountServiceMaxAttempts) (k : Nat) : ∃ trace,
    (sharedClient settings).Runs (sharedClient settings).initial (.started k) trace := by
  induction k with
  | zero => exact ⟨[], .refl⟩
  | succ k ih =>
      obtain ⟨trace, ran⟩ := ih
      refine ⟨_, ran.step (.request k 0) ?_⟩
      have started : ClientRequest.start settings .closed 0 = .attempting 0 := by
        have first : 0 < settings.accountServiceMaxAttempts := by omega
        simp [ClientRequest.start, CircuitBreaker.allow, CircuitBreaker.closed, first]
      simp only [sharedClient, SharedClient.step, SharedClient.started, le_refl, if_true,
        lt_irrefl, if_false, started, SharedCall.enter, SharedClient.setCall, Option.some.injEq,
        SharedClient.mk.injEq, true_and]
      funext i
      rw [Function.update_apply]
      by_cases own : i = k
      · rw [if_pos own, if_pos (by omega)]
      · rw [if_neg own]
        exact if_congr (by omega) rfl rfl

/-- A first attempt that times out counts a failure and sleeps. -/
theorem step_of_timeout (several : 2 ≤ settings.accountServiceMaxAttempts) (client : SharedClient)
    (i : Nat) {now : Rat} (later : client.now ≤ now) (attempts : client.calls i = .attempting 0) :
    (sharedClient settings).step client (.ends i (.timeout "timeout") now .zero) =
      some (client.setCall now (client.breaker.failure settings now) i
        (.sleeping 0 (now + 1 / 20))) := by
  have more : ¬ settings.accountServiceMaxAttempts ≤ (0 : Nat) + 1 := by omega
  have seconds : sleepSeconds 0 .zero = 1 / 20 := by simp [sleepSeconds, Draw.zero]
  simp only [sharedClient, SharedClient.step, later, if_true, attempts, ClientRequest.attemptEnds,
    ClientRequest.failed, more, if_false, SharedCall.enter, seconds]

/-- The calls fail one after the other while the first of them sleeps. -/
theorem failed_runs (several : 2 ≤ settings.accountServiceMaxAttempts) (k m : Nat) (within : m ≤ k) :
    ∃ client trace,
      (sharedClient settings).Runs (sharedClient settings).initial client trace ∧
      client.now ≤ 1 / 20 ∧ client.calls 0 = .sleeping 0 (1 / 20) ∧
      client.breaker.failures = m + 1 ∧
      (1 ≤ m → settings.circuitBreakerFailureThreshold ≤ (m + 1 : Nat) →
        client.breaker.openedAt = some (1 / 20)) ∧
      ∀ i, m < i → i ≤ k → client.calls i = .attempting 0 := by
  induction m with
  | zero =>
      obtain ⟨trace, ran⟩ := started_runs several (k + 1)
      have first := step_of_timeout several (.started (k + 1)) 0 (le_refl 0)
        (by simp [SharedClient.started])
      refine ⟨_, _, ran.step _ first, by simp [SharedClient.setCall], ?_, rfl,
        fun one => absurd one (by omega), fun i above below => ?_⟩
      · simp [SharedClient.calls_setCall]
      · rw [SharedClient.calls_setCall, if_neg (by omega)]
        exact if_pos (by omega)
  | succ m ih =>
      obtain ⟨client, trace, ran, early, asleep, failures, _, others⟩ := ih (by omega)
      have next := step_of_timeout several client (m + 1) early (others (m + 1) (by omega) within)
      refine ⟨_, _, ran.step _ next, le_rfl, ?_, ?_, fun _ reached => ?_, fun i above below => ?_⟩
      · rw [SharedClient.calls_setCall, if_neg (by omega)]
        exact asleep
      · simp [SharedClient.setCall, CircuitBreaker.failure, failures]
      · simp only [SharedClient.setCall, CircuitBreaker.failure, failures]
        exact if_pos reached
      · rw [SharedClient.calls_setCall, if_neg (by omega)]
        exact others i (by omega) below

/-- A call that sleeps while other calls open the circuit starts its next attempt. -/
theorem not_failsFast_of_several (threshold : 1 ≤ settings.circuitBreakerFailureThreshold)
    (recovery : 0 < settings.circuitBreakerRecoverySeconds)
    (several : 2 ≤ settings.accountServiceMaxAttempts) : ¬ FailsFast settings := by
  intro fails
  let k := settings.circuitBreakerFailureThreshold.toNat
  obtain ⟨client, trace, ran, early, asleep, failures, opened, _⟩ :=
    failed_runs several k k le_rfl
  have stepped : (sharedClient settings).step client (.wake 0 (1 / 20)) =
      some (client.setCall (1 / 20) client.breaker 0 (.attempting 1)) := by
    simp only [sharedClient, SharedClient.step, early, if_true, asleep, le_refl]
  refine fails _ _ (ran.step (.wake 0 (1 / 20)) stepped) _
    (List.mem_append_right _ (List.mem_singleton_self _)) ⟨0, 1, ?_, ?_⟩
    ⟨1 / 20, opened ?_ ?_, ?_⟩
  · simp [SharedClient.calls_setCall]
  · simp [asleep]
  · omega
  · omega
  · simpa [SharedClient.setCall] using recovery

end Several

/-- The client never starts an attempt on an open circuit exactly when its calls have at most one
attempt. -/
theorem fails_fast_iff (threshold : 1 ≤ settings.circuitBreakerFailureThreshold)
    (recovery : 0 < settings.circuitBreakerRecoverySeconds) :
    FailsFast settings ↔ settings.accountServiceMaxAttempts ≤ 1 := by
  refine ⟨fun fails => ?_, failsFast_of_single⟩
  by_contra several
  exact not_failsFast_of_several threshold recovery (by omega) fails

/-- Every call makes one attempt. -/
def Settings.single : Settings := { Settings.default with accountServiceMaxAttempts := 1 }

theorem fails_fast_single : FailsFast .single ∧ ¬ FailsFast .default := by
  constructor
  · exact (fails_fast_iff (by decide) (by decide)).mpr (by decide)
  · exact fun fails => absurd ((fails_fast_iff (by decide) (by decide)).mp fails) (by decide)

/-- Five calls start, time out and open the circuit, and the first of them wakes up. -/
def fiveTimeouts : List SharedAction :=
  [.request 0 0, .request 1 0, .request 2 0, .request 3 0, .request 4 0,
    .ends 0 (.timeout "timeout") 0 .zero, .ends 1 (.timeout "timeout") 0 .zero,
    .ends 2 (.timeout "timeout") 0 .zero, .ends 3 (.timeout "timeout") 0 .zero,
    .ends 4 (.timeout "timeout") 0 .zero, .wake 0 (1 / 20)]

/-- A call is at this attempt. -/
def SharedCall.current : SharedCall → Option Nat
  | .attempting attempt => some attempt
  | .idle | .sleeping _ _ | .finished _ => none

theorem SharedCall.current_eq_some {call : SharedCall} {attempt : Nat} :
    call.current = some attempt ↔ call = .attempting attempt := by
  cases call <;> simp [current]

theorem open_circuit_attempted : ∃ last trace,
    (sharedClient .default).traced.run ((sharedClient .default).initial, []) fiveTimeouts =
      some (last, trace) ∧
    ∃ transition ∈ trace, StartsAttempt transition ∧
      transition.before.breaker.OpenAt .default transition.after.now := by
  have ran : ((sharedClient .default).traced.run ((sharedClient .default).initial, [])
      fiveTimeouts).map (fun (_, steps) => (steps[10]?).map fun transition =>
        ((transition.after.calls 0).current, (transition.before.calls 0).current,
          transition.before.breaker.openedAt, transition.after.now)) =
      some (some (some 1, none, some 0, 1 / 20)) := by decide +kernel
  obtain ⟨⟨last, trace⟩, ran, observed⟩ := Option.map_eq_some_iff.mp ran
  obtain ⟨transition, found, states⟩ := Option.map_eq_some_iff.mp observed
  simp only [Prod.mk.injEq] at states
  obtain ⟨attempts, waits, opened, now⟩ := states
  refine ⟨last, trace, ran, transition, List.mem_of_getElem? found,
    ⟨0, 1, SharedCall.current_eq_some.mp attempts, fun earlier => ?_⟩, 0, opened, ?_⟩
  · rw [SharedCall.current_eq_some.mpr earlier] at waits
    cases waits
  · rw [now]
    decide +kernel

end EventLedger.EventGateway
