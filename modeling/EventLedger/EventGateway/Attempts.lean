import EventLedger.EventGateway.AccountClient

namespace EventLedger.EventGateway

variable {settings : Settings} {answers : List AttemptOutcome} {outcome : CallOutcome}

/-- A call ends after its attempts, and other calls may change the breaker between them. -/
inductive ClientRequest.Ends (settings : Settings) :
    ClientRequest → List AttemptOutcome → CallOutcome → Prop where
  | finished (outcome : CallOutcome) : Ends settings (.finished outcome) [] outcome
  | attempt {answers : List AttemptOutcome} {outcome : CallOutcome} (breaker : CircuitBreaker)
      (attempt : Nat) (now : Rat) (answer : AttemptOutcome)
      (later : Ends settings (attemptEnds settings breaker attempt now answer).2 answers outcome) :
      Ends settings (.attempting attempt) (answer :: answers) outcome
  | wake {answers : List AttemptOutcome} {outcome : CallOutcome} (attempt : Nat)
      (later : Ends settings (.attempting (attempt + 1)) answers outcome) :
      Ends settings (.sleeping attempt) answers outcome

/-- This attempt counts as a failure and may be followed by another one. -/
def AttemptOutcome.failure : AttemptOutcome → Bool
  | .response answer => ClientRequest.transient answer.statusCode
  | .timeout _ | .connectError _ => true
  | .raised => false

/-- A call reports the first attempt that is no failure, or that all its attempts failed. -/
inductive Reports : List AttemptOutcome → CallOutcome → Prop where
  | response (response : Response) (final : ClientRequest.transient response.statusCode = false) :
      Reports [.response response] (.response response)
  | raised : Reports [.raised] .raised
  | unavailable (message : String) : Reports [] (.unavailable message)
  | failure {answers : List AttemptOutcome} {outcome : CallOutcome} (answer : AttemptOutcome)
      (failed : answer.failure) (later : Reports answers outcome) :
      Reports (answer :: answers) outcome

/-- A call that has not started yet can only be refused. -/
def ClientRequest.Pending (request : ClientRequest) : Prop :=
  ∀ outcome, request = .finished outcome → ∃ message, outcome = .unavailable message

theorem ClientRequest.pending_start (breaker : CircuitBreaker) (now : Rat) :
    (start settings breaker now).Pending := by
  intro outcome refused
  unfold start at refused
  repeat' split at refused
  · cases refused
  · cases refused
    exact ⟨_, rfl⟩
  · cases refused
    exact ⟨_, rfl⟩

/-- A failed attempt leaves the call open or ends it as unavailable. -/
theorem ClientRequest.pending_failed (breaker : CircuitBreaker) (attempt : Nat) (now : Rat)
    (message : String) : (failed settings breaker attempt now message).2.Pending := by
  intro outcome refused
  simp only [failed] at refused
  split at refused
  · cases refused
    exact ⟨_, rfl⟩
  · cases refused

/-- Every call reports its attempts. -/
theorem ClientRequest.Ends.reports {request : ClientRequest}
    (ends : request.Ends settings answers outcome) (pending : request.Pending) :
    Reports answers outcome := by
  induction ends with
  | finished outcome =>
      obtain ⟨message, rfl⟩ := pending outcome rfl
      exact .unavailable message
  | attempt breaker attempt now answer later ih =>
      cases answer with
      | response response =>
          by_cases final : transient response.statusCode = false
          · simp only [attemptEnds, final, Bool.false_eq_true, if_false] at later
            cases later
            exact .response response final
          · rw [Bool.not_eq_false] at final
            refine .failure _ final (ih ?_)
            simp only [attemptEnds, final, if_true]
            exact pending_failed breaker attempt now _
      | timeout message | connectError message =>
          exact .failure _ rfl (ih (pending_failed breaker attempt now message))
      | raised =>
          cases later
          exact .raised
  | wake attempt later ih => exact ih fun _ same => by cases same

/-- A reported response is the answer to the last attempt. -/
theorem Reports.getLast?_response {response : Response}
    (reports : Reports answers (.response response)) :
    answers.getLast? = some (.response response) ∧
      ClientRequest.transient response.statusCode = false := by
  generalize same : CallOutcome.response response = outcome at reports
  induction reports with
  | response _ final =>
      cases same
      exact ⟨rfl, final⟩
  | raised | unavailable => cases same
  | failure answer failed later ih =>
      obtain ⟨last, final⟩ := ih same
      exact ⟨by rw [List.getLast?_cons, last]; rfl, final⟩

/-- The last answer to a call is reported unless it is a failure. -/
theorem Reports.of_getLast? {response : Response} (reports : Reports answers outcome)
    (last : answers.getLast? = some (.response response)) :
    outcome = .response response ∨ ClientRequest.transient response.statusCode := by
  induction reports with
  | response =>
      cases last
      exact .inl rfl
  | raised | unavailable => cases last
  | @failure answers outcome answer failed later ih =>
      cases answers with
      | nil =>
          cases last
          exact .inr failed
      | cons next answers =>
          rw [List.getLast?_cons_cons] at last
          exact ih last

/-- A condition that all failures meet holds of all attempts exactly when it holds of the reported
one. -/
theorem Reports.forall_iff {holds : AttemptOutcome → Prop}
    (failures : ∀ answer : AttemptOutcome, answer.failure → holds answer)
    (reports : Reports answers outcome) :
    (∀ answer ∈ answers, holds answer) ↔
      (∀ response, outcome = .response response → holds (.response response)) ∧
        (outcome = .raised → holds .raised) := by
  induction reports with
  | response response => simp
  | raised => simp
  | unavailable message => simp
  | failure answer failed later ih =>
      rw [List.forall_mem_cons, ih, and_iff_right (failures answer failed)]

end EventLedger.EventGateway
