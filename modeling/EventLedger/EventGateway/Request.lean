import EventLedger.EventGateway.AsyncFallback
import EventLedger.EventGateway.Attempts
import Mathlib.Data.ENat.Lattice

namespace EventLedger.EventGateway

/-- A call performs attempts, each with the breaker after it, and sleeps. -/
inductive Operation where
  | attempt (number : Nat) (breaker : CircuitBreaker)
  | sleep (seconds : Rat)

/-- A call that runs alone ends with an outcome and leaves the breaker behind. -/
structure Call where
  outcome : CallOutcome
  breaker : CircuitBreaker
  operations : List Operation

/-- These are the outcomes of the attempts, the clock at their failures and the draws of the sleeps. -/
structure Trials where
  outcome : Nat → AttemptOutcome
  clock : Nat → Rat
  draw : Nat → Draw

/-- The sleep doubles with each attempt, and a jitter is added. -/
def sleepSeconds (attempt : Nat) (draw : Draw) : Rat := 1 / 20 * 2 ^ attempt + 3 / 100 * draw.val

/-- The loop starts an attempt for each number of the range. -/
def attemptLoop (settings : Settings) (trials : Trials) :
    Nat → Nat → CircuitBreaker → String → Call
  | 0, _, breaker, last => ⟨.unavailable last, breaker, []⟩
  | remaining + 1, attempt, breaker, _ =>
      let caught (message : String) : Call :=
        let failed := breaker.failure settings (trials.clock attempt)
        if settings.accountServiceMaxAttempts ≤ attempt + 1 then
          ⟨.unavailable message, failed, [.attempt attempt failed]⟩
        else
          let later := attemptLoop settings trials remaining (attempt + 1) failed message
          ⟨later.outcome, later.breaker, .attempt attempt failed ::
            .sleep (sleepSeconds attempt (trials.draw attempt)) :: later.operations⟩
      match trials.outcome attempt with
      | .response response =>
          if ClientRequest.transient response.statusCode then caught "transient downstream error"
          else ⟨.response response, breaker.success, [.attempt attempt breaker.success]⟩
      | .timeout message | .connectError message => caught message
      | .raised => ⟨.raised, breaker, [.attempt attempt breaker]⟩

/-- The breaker is asked once, before the loop. -/
def request (settings : Settings) (trials : Trials) (breaker : CircuitBreaker) (now : Rat) : Call :=
  if breaker.allow settings now then
    attemptLoop settings trials settings.accountServiceMaxAttempts.toNat 0 breaker "None"
  else ⟨.unavailable "account service circuit is open", breaker, []⟩

variable {settings : Settings} {trials : Trials} {breaker : CircuitBreaker} {call : Call}
  {remaining attempt : Nat} {last : String}

section Spec

def Operation.number : Operation → Option Nat
  | .attempt number _ => some number
  | .sleep _ => none

/-- These attempts are made by a call. -/
def Call.attempts (call : Call) : List Nat := call.operations.filterMap Operation.number

/-- This is the position of the first outcome that ends a call at once, counted from one, and it is
infinite when there is none. -/
noncomputable def Trials.position (trials : Trials) : ℕ∞ :=
  ⨅ k ∈ {k | (trials.outcome k).failure = false}, ((k : ℕ∞) + 1)

/-- The breaker has counted some failures, and the last one sets its time from the threshold on. -/
def CircuitBreaker.counted (settings : Settings) (trials : Trials) (breaker : CircuitBreaker) :
    Nat → CircuitBreaker
  | 0 => breaker
  | k + 1 =>
      { failures := breaker.failures + (k + 1)
        openedAt :=
          if settings.circuitBreakerFailureThreshold ≤ (breaker.failures + (k + 1) : Nat) then
            some (trials.clock k)
          else breaker.openedAt }

/-- Each sleep follows an attempt and is followed by another one. -/
def SleepsBetween (operations : List Operation) : Prop :=
  ∀ earlier seconds later, operations = earlier ++ .sleep seconds :: later →
    (∃ number breaker, earlier.getLast? = some (.attempt number breaker)) ∧
      ∃ number breaker, later.head? = some (.attempt number breaker)

/-- A call that runs alone makes its attempts up to the first outcome that ends it. -/
structure RunsAlone (settings : Settings) (trials : Trials) (breaker : CircuitBreaker)
    (call : Call) : Prop where
  attempts : (call.attempts.length : ℕ∞) =
    min (settings.accountServiceMaxAttempts.toNat : ℕ∞) trials.position
  numbers : call.attempts = List.range call.attempts.length
  response : ∀ (k : Nat) (response : Response), trials.position = k + 1 →
    k + 1 ≤ settings.accountServiceMaxAttempts → trials.outcome k = .response response →
      call.outcome = .response response ∧ call.breaker = .closed
  raised : ∀ k : Nat, trials.position = k + 1 → k + 1 ≤ settings.accountServiceMaxAttempts →
    trials.outcome k = .raised →
      call.outcome = .raised ∧ call.breaker = breaker.counted settings trials k
  unavailable : (settings.accountServiceMaxAttempts.toNat : ℕ∞) < trials.position →
    (∃ message, call.outcome = .unavailable message) ∧
      call.breaker = breaker.counted settings trials settings.accountServiceMaxAttempts.toNat
  counted : ∀ number after, .attempt number after ∈ call.operations →
    (trials.outcome number).failure → after = breaker.counted settings trials (number + 1)
  between : SleepsBetween call.operations

end Spec

/-- One iteration of the loop returns, raises, gives up or sleeps and starts over. -/
inductive Iteration (settings : Settings) (trials : Trials) (remaining attempt : Nat)
    (breaker : CircuitBreaker) : Call → Prop where
  | response (response : Response) (same : trials.outcome attempt = .response response)
      (final : ClientRequest.transient response.statusCode = false) :
      Iteration settings trials remaining attempt breaker
        ⟨.response response, .closed, [.attempt attempt .closed]⟩
  | raised (same : trials.outcome attempt = .raised) :
      Iteration settings trials remaining attempt breaker
        ⟨.raised, breaker, [.attempt attempt breaker]⟩
  | exhausted (message : String) (failed : (trials.outcome attempt).failure)
      (caught : ClientRequest.attemptEnds settings breaker attempt (trials.clock attempt)
        (trials.outcome attempt) =
          ClientRequest.failed settings breaker attempt (trials.clock attempt) message)
      (last : settings.accountServiceMaxAttempts ≤ attempt + 1) :
      Iteration settings trials remaining attempt breaker
        ⟨.unavailable message, breaker.failure settings (trials.clock attempt),
          [.attempt attempt (breaker.failure settings (trials.clock attempt))]⟩
  | again (message : String) (later : Call) (failed : (trials.outcome attempt).failure)
      (caught : ClientRequest.attemptEnds settings breaker attempt (trials.clock attempt)
        (trials.outcome attempt) =
          ClientRequest.failed settings breaker attempt (trials.clock attempt) message)
      (more : attempt + 1 < settings.accountServiceMaxAttempts)
      (looped : attemptLoop settings trials remaining (attempt + 1)
        (breaker.failure settings (trials.clock attempt)) message = later) :
      Iteration settings trials remaining attempt breaker
        ⟨later.outcome, later.breaker,
          .attempt attempt (breaker.failure settings (trials.clock attempt)) ::
            .sleep (sleepSeconds attempt (trials.draw attempt)) :: later.operations⟩

theorem attemptLoop_succ (looped : attemptLoop settings trials (remaining + 1) attempt breaker last =
    call) : Iteration settings trials remaining attempt breaker call := by
  subst looped
  have caught (message : String) (failed : (trials.outcome attempt).failure)
      (caught : ClientRequest.attemptEnds settings breaker attempt (trials.clock attempt)
        (trials.outcome attempt) =
          ClientRequest.failed settings breaker attempt (trials.clock attempt) message) :
      Iteration settings trials remaining attempt breaker
        (if settings.accountServiceMaxAttempts ≤ attempt + 1 then
          ⟨.unavailable message, breaker.failure settings (trials.clock attempt),
            [.attempt attempt (breaker.failure settings (trials.clock attempt))]⟩
        else
          let later := attemptLoop settings trials remaining (attempt + 1)
            (breaker.failure settings (trials.clock attempt)) message
          ⟨later.outcome, later.breaker,
            .attempt attempt (breaker.failure settings (trials.clock attempt)) ::
              .sleep (sleepSeconds attempt (trials.draw attempt)) :: later.operations⟩) := by
    split
    · next last => exact .exhausted message failed caught last
    · next more => exact .again message _ failed caught (by omega) rfl
  unfold attemptLoop
  cases same : trials.outcome attempt with
  | response response =>
      by_cases final : ClientRequest.transient response.statusCode
      · simp only [final, if_true]
        exact caught _ (by rw [same]; exact final) (by rw [same]; exact if_pos final)
      · simp only [final]
        exact .response response same (by simpa using final)
  | timeout message | connectError message =>
      exact caught message (by rw [same]; rfl) (by rw [same]; rfl)
  | raised => exact .raised same

/-- One more failure is counted from the current time on. -/
theorem CircuitBreaker.failure_counted (breaker : CircuitBreaker) (k : Nat) :
    (breaker.counted settings trials k).failure settings (trials.clock k) =
      breaker.counted settings trials (k + 1) := by
  cases k with
  | zero => rfl
  | succ k =>
      simp only [counted, failure, Nat.add_assoc, CircuitBreaker.mk.injEq, true_and]
      split
      · rfl
      · next below => rw [if_neg (by push_cast at below ⊢; omega)]

/-- The loop makes its attempts from one number on, after all earlier attempts have failed. -/
structure Looped (settings : Settings) (trials : Trials) (breaker : CircuitBreaker) (attempt : Nat)
    (call : Call) : Prop where
  numbers : call.attempts = List.range' attempt call.attempts.length
  final : ∀ k, attempt ≤ k → k + 1 ≤ settings.accountServiceMaxAttempts →
    (trials.outcome k).failure = false →
    (∀ i, attempt ≤ i → i < k → (trials.outcome i).failure) →
      call.attempts.length = k + 1 - attempt ∧
      (∀ response, trials.outcome k = .response response →
        call.outcome = .response response ∧ call.breaker = .closed) ∧
      (trials.outcome k = .raised →
        call.outcome = .raised ∧ call.breaker = breaker.counted settings trials k)
  unavailable : (∀ i : Nat, attempt ≤ i → i + 1 ≤ settings.accountServiceMaxAttempts →
      (trials.outcome i).failure) →
    call.attempts.length = settings.accountServiceMaxAttempts.toNat - attempt ∧
      (∃ message, call.outcome = .unavailable message) ∧
      call.breaker = breaker.counted settings trials settings.accountServiceMaxAttempts.toNat
  counted : ∀ number after, .attempt number after ∈ call.operations →
    (trials.outcome number).failure → after = breaker.counted settings trials (number + 1)
  between : SleepsBetween call.operations
  head : attempt + 1 ≤ settings.accountServiceMaxAttempts →
    ∃ breaker, call.operations.head? = some (.attempt attempt breaker)

/-- One attempt has no sleep. -/
theorem sleepsBetween_attempt (number : Nat) (breaker : CircuitBreaker) :
    SleepsBetween [.attempt number breaker] := by
  intro earlier seconds later same
  cases earlier with
  | nil => cases same
  | cons first rest => cases rest <;> cases same

/-- A sleep between an attempt and the next operations keeps all sleeps between attempts. -/
theorem SleepsBetween.cons {operations : List Operation} (between : SleepsBetween operations)
    (starts : ∃ number breaker, operations.head? = some (.attempt number breaker)) (number : Nat)
    (breaker : CircuitBreaker) (seconds : Rat) :
    SleepsBetween (.attempt number breaker :: .sleep seconds :: operations) := by
  intro earlier pause later same
  match earlier with
  | [] => cases same
  | [first] =>
      cases same
      exact ⟨⟨number, breaker, rfl⟩, starts⟩
  | first :: second :: rest =>
      cases same
      obtain ⟨⟨number, breaker, attempted⟩, next⟩ := between rest pause later rfl
      refine ⟨⟨number, breaker, ?_⟩, next⟩
      rw [List.getLast?_cons_cons, List.getLast?_cons, attempted]
      rfl

/-- A final attempt is the only one. -/
theorem Looped.once {outcome : CallOutcome} {after : CircuitBreaker}
    (more : attempt + 1 ≤ settings.accountServiceMaxAttempts)
    (ends : (trials.outcome attempt).failure = false)
    (response : ∀ response, trials.outcome attempt = .response response →
      outcome = .response response ∧ after = .closed)
    (raised : trials.outcome attempt = .raised →
      outcome = .raised ∧ after = breaker.counted settings trials attempt) :
    Looped settings trials breaker attempt ⟨outcome, after, [.attempt attempt after]⟩ := by
  refine ⟨rfl, fun k low _ _ before => ?_, fun failing => ?_, fun number other member failed => ?_,
    sleepsBetween_attempt _ _, fun _ => ⟨_, rfl⟩⟩
  · obtain rfl : attempt = k := by
      by_contra different
      exact absurd (before attempt le_rfl (by omega)) (by simp [ends])
    exact ⟨by simp [Call.attempts, Operation.number], response, raised⟩
  · exact absurd (failing attempt le_rfl more) (by simp [ends])
  · cases List.mem_singleton.mp member
    exact absurd failed (by simp [ends])

/-- A failed attempt that was the last one ends the loop. -/
theorem Looped.exhausted (message : String)
    (full : settings.accountServiceMaxAttempts = attempt + 1)
    (failed : (trials.outcome attempt).failure) :
    Looped settings trials breaker attempt
      ⟨.unavailable message, breaker.counted settings trials (attempt + 1),
        [.attempt attempt (breaker.counted settings trials (attempt + 1))]⟩ := by
  have count : settings.accountServiceMaxAttempts.toNat = attempt + 1 := by omega
  refine ⟨rfl, fun k low high ends _ => ?_, fun _ => ⟨?_, ⟨message, rfl⟩, by rw [count]⟩,
    fun number after member _ => ?_, sleepsBetween_attempt _ _, fun _ => ⟨_, rfl⟩⟩
  · obtain rfl : k = attempt := by omega
    exact absurd failed (by simp [ends])
  · simp [Call.attempts, Operation.number, count]
  · cases List.mem_singleton.mp member
    rfl

/-- A failed attempt, a sleep and the rest of the loop are the loop from one attempt earlier. -/
theorem Looped.again {later : Call} (seconds : Rat)
    (rest : Looped settings trials breaker (attempt + 1) later)
    (more : attempt + 1 < settings.accountServiceMaxAttempts)
    (failed : (trials.outcome attempt).failure) :
    Looped settings trials breaker attempt
      ⟨later.outcome, later.breaker,
        .attempt attempt (breaker.counted settings trials (attempt + 1)) :: .sleep seconds ::
          later.operations⟩ := by
  have attempts (after : CircuitBreaker) : Call.attempts ⟨later.outcome, later.breaker,
      .attempt attempt after :: .sleep seconds :: later.operations⟩ = attempt :: later.attempts := rfl
  have starts : ∃ number breaker, later.operations.head? = some (.attempt number breaker) :=
    ⟨attempt + 1, rest.head (by omega)⟩
  refine ⟨?_, fun k low high ends before => ?_, fun failing => ?_, fun number after member own => ?_,
    rest.between.cons starts _ _ _, fun _ => ⟨_, rfl⟩⟩
  · rw [attempts, List.length_cons, List.range'_succ, ← rest.numbers]
  · have above : attempt + 1 ≤ k := by
      by_contra below
      obtain rfl : k = attempt := by omega
      exact absurd failed (by simp [ends])
    obtain ⟨length, ended⟩ := rest.final k above high ends fun i low => before i (by omega)
    exact ⟨by rw [attempts, List.length_cons, length]; omega, ended⟩
  · obtain ⟨length, ended⟩ := rest.unavailable fun i low => failing i (by omega)
    exact ⟨by rw [attempts, List.length_cons, length]; omega, ended⟩
  · simp only [List.mem_cons, Operation.attempt.injEq, reduceCtorEq, false_or] at member
    rcases member with ⟨rfl, rfl⟩ | member
    · rfl
    · exact rest.counted number after member own

theorem attemptLoop_looped (room : attempt + remaining = settings.accountServiceMaxAttempts.toNat)
    (looped : attemptLoop settings trials remaining attempt
      (breaker.counted settings trials attempt) last = call) :
    Looped settings trials breaker attempt call := by
  induction remaining generalizing attempt last call with
  | zero =>
      subst looped
      refine ⟨rfl, fun k low high => by omega, fun _ => ⟨?_, ⟨last, rfl⟩, ?_⟩,
        fun _ _ member => (by cases member), ?_, fun high => by omega⟩
      · simp only [attemptLoop, Call.attempts, List.filterMap_nil, List.length_nil]
        omega
      · rw [← room]
        rfl
      · intro earlier seconds later same
        cases earlier <;> cases same
  | succ remaining ih =>
      cases attemptLoop_succ looped with
      | response response same final =>
          refine .once (by omega) (by rw [same]; exact final) (fun other own => ?_) fun own => ?_
          · cases same.symm.trans own
            exact ⟨rfl, rfl⟩
          · cases same.symm.trans own
      | raised same =>
          refine .once (by omega) (by rw [same]; rfl) (fun other own => ?_) fun _ => ⟨rfl, rfl⟩
          cases same.symm.trans own
      | exhausted message failed _ last =>
          rw [CircuitBreaker.failure_counted]
          exact .exhausted message (by omega) failed
      | again message later failed _ more again =>
          rw [CircuitBreaker.failure_counted] at again ⊢
          exact (ih (by omega) again).again _ more failed

section Position

/-- The position of the first outcome that ends a call lies beyond the failures. -/
theorem Trials.succ_le_position {n : Nat} (before : ∀ i < n, (trials.outcome i).failure) :
    ((n + 1 : Nat) : ℕ∞) ≤ trials.position := by
  refine le_iInf₂ fun i ends => ?_
  have low : n ≤ i := by
    by_contra below
    exact absurd (before i (by omega)) (by simp [show (trials.outcome i).failure = false from ends])
  exact_mod_cast Nat.add_le_add_right low 1

theorem Trials.position_eq {k : Nat} (ends : (trials.outcome k).failure = false)
    (before : ∀ i < k, (trials.outcome i).failure) : trials.position = k + 1 := by
  have beyond := Trials.succ_le_position before
  exact le_antisymm (iInf₂_le k ends) (by exact_mod_cast beyond)

theorem Trials.lt_position {n : Nat} (before : ∀ i < n, (trials.outcome i).failure) :
    (n : ℕ∞) < trials.position :=
  lt_of_lt_of_le (by exact_mod_cast Nat.lt_succ_self n) (Trials.succ_le_position before)

/-- Either one of the first outcomes is the first that ends a call, or they all fail. -/
theorem Trials.first_or_failures (trials : Trials) (n : Nat) :
    (∃ k < n, (trials.outcome k).failure = false ∧ ∀ i < k, (trials.outcome i).failure) ∨
      ∀ i < n, (trials.outcome i).failure := by
  induction n with
  | zero => exact .inr fun i below => by omega
  | succ n ih =>
      rcases ih with ⟨k, below, first⟩ | failures
      · exact .inl ⟨k, by omega, first⟩
      · by_cases failed : (trials.outcome n).failure
        · refine .inr fun i below => ?_
          rcases Nat.lt_succ_iff_lt_or_eq.mp below with earlier | rfl
          · exact failures i earlier
          · exact failed
        · exact .inl ⟨n, by omega, by simpa using failed, failures⟩

end Position

/-- A call whose attempts are ended by one outcome makes the attempts up to it. -/
theorem RunsAlone.of_first {k : Nat} (looped : Looped settings trials breaker 0 call)
    (below : k + 1 ≤ settings.accountServiceMaxAttempts)
    (ends : (trials.outcome k).failure = false)
    (before : ∀ i < k, (trials.outcome i).failure) :
    RunsAlone settings trials breaker call := by
  have position := Trials.position_eq ends before
  have within : trials.position ≤ (settings.accountServiceMaxAttempts.toNat : ℕ∞) := by
    rw [position]
    exact_mod_cast (show k + 1 ≤ settings.accountServiceMaxAttempts.toNat by omega)
  have only {i : Nat} (other : trials.position = i + 1) : i = k := by
    rw [position] at other
    have same : k + 1 = i + 1 := by exact_mod_cast other
    omega
  obtain ⟨length, response, raised⟩ :=
    looped.final k (Nat.zero_le k) below ends fun i _ => before i
  refine ⟨?_, ?_, fun i answer other _ same => ?_, fun i other _ same => ?_,
    fun beyond => absurd within (not_le.mpr beyond), looped.counted, looped.between⟩
  · rw [min_eq_right within, position, length]
    simp
  · rw [List.range_eq_range']
    exact looped.numbers
  · obtain rfl := only other
    exact response answer same
  · obtain rfl := only other
    exact raised same

/-- A call whose attempts all fail makes all of them. -/
theorem RunsAlone.of_failures (looped : Looped settings trials breaker 0 call)
    (failures : ∀ i < settings.accountServiceMaxAttempts.toNat, (trials.outcome i).failure) :
    RunsAlone settings trials breaker call := by
  have beyond := Trials.lt_position failures
  have outside {k : Nat} (position : trials.position = k + 1)
      (below : k + 1 ≤ settings.accountServiceMaxAttempts) : False := by
    rw [position] at beyond
    have above : settings.accountServiceMaxAttempts.toNat < k + 1 := by exact_mod_cast beyond
    omega
  obtain ⟨length, unavailable⟩ := looped.unavailable fun i _ below => failures i (by omega)
  refine ⟨?_, ?_, fun k _ position below _ => (outside position below).elim,
    fun k position below _ => (outside position below).elim, fun _ => unavailable,
    looped.counted, looped.between⟩
  · rw [min_eq_left beyond.le, length, Nat.sub_zero]
  · rw [List.range_eq_range']
    exact looped.numbers

/-- The loop is the call of the client from one attempt on. -/
theorem attemptLoop_ends (room : attempt + remaining = settings.accountServiceMaxAttempts.toNat)
    (some : 0 < remaining)
    (looped : attemptLoop settings trials remaining attempt breaker last = call) :
    (ClientRequest.attempting attempt).Ends settings (call.attempts.map trials.outcome)
      call.outcome := by
  induction remaining generalizing attempt breaker last call with
  | zero => omega
  | succ remaining ih =>
      cases attemptLoop_succ looped with
      | response response same final =>
          refine .attempt breaker attempt (trials.clock attempt) (trials.outcome attempt) ?_
          rw [same]
          simp only [ClientRequest.attemptEnds, final]
          exact .finished _
      | raised same =>
          refine .attempt breaker attempt (trials.clock attempt) (trials.outcome attempt) ?_
          rw [same]
          exact .finished _
      | exhausted message _ caught last =>
          refine .attempt breaker attempt (trials.clock attempt) (trials.outcome attempt) ?_
          rw [caught, ClientRequest.failed, if_pos last]
          exact .finished _
      | again message later _ caught more again =>
          refine .attempt breaker attempt (trials.clock attempt) (trials.outcome attempt) ?_
          rw [caught, ClientRequest.failed, if_neg (by omega)]
          exact .wake attempt (ih (by omega) (by omega) again)

/-- A call that runs alone is a call of the client. -/
theorem request_ends (settings : Settings) (trials : Trials) (breaker : CircuitBreaker) (now : Rat) :
    let call := request settings trials breaker now
    (ClientRequest.start settings breaker now).Ends settings (call.attempts.map trials.outcome)
      call.outcome := by
  unfold request ClientRequest.start
  split
  · split
    · exact attemptLoop_ends (Nat.zero_add _) (by omega) rfl
    · next none =>
        rw [Int.toNat_of_nonpos (by omega)]
        exact .finished _
  · exact .finished _

/-- A call that runs alone on a breaker that allows it makes its attempts up to the first outcome that
ends it, and the breaker counts its failures. -/
theorem request_runs_alone (settings : Settings) (trials : Trials) (breaker : CircuitBreaker)
    (now : Rat) (allowed : breaker.allow settings now) :
    RunsAlone settings trials breaker (request settings trials breaker now) := by
  have looped : Looped settings trials breaker 0 (request settings trials breaker now) := by
    unfold request
    rw [if_pos allowed]
    exact attemptLoop_looped (Nat.zero_add _) rfl
  rcases trials.first_or_failures settings.accountServiceMaxAttempts.toNat with
    ⟨k, below, ends, before⟩ | failures
  · exact .of_first looped (by omega) ends before
  · exact .of_failures looped failures

/-- The first attempt times out and the second one is answered. -/
def recoveredTrials : Trials where
  outcome k := if k = 0 then .timeout "timeout" else .response ⟨201, "application/json", some "", none⟩
  clock k := k
  draw _ := .zero

theorem request_runs_alone_recovered :
    (request .default recoveredTrials ⟨4, none⟩ 0).attempts = [0, 1] ∧
      RunsAlone .default recoveredTrials ⟨4, none⟩ (request .default recoveredTrials ⟨4, none⟩ 0) :=
  ⟨by rfl, request_runs_alone _ _ _ _ rfl⟩

end EventLedger.EventGateway
