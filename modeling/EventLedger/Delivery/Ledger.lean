import EventLedger.AccountService.Redelivery
import EventLedger.Delivery.Connection

namespace EventLedger.Delivery
open Library Python AccountService

variable {environment : Environment} {system next : System} {action : Delivery.Action}
  {db later : AccountService.Database} {payload : Payload} {traceId : String}

/-- The Account Service refuses a payload by its validation or by its ledger. -/
def Rejected (environment : Environment) (payload : Payload) (db : AccountService.Database) : Prop :=
  ∀ command, TransactionCreate.validate environment.unicode payload = some command →
    ∀ traceId, (Request.mk (environment.path payload.accountId) command traceId).Refused db

/-- The ledger holds a transaction with the data of a payload. -/
def Recorded (environment : Environment) (payload : Payload) (db : AccountService.Database) : Prop :=
  ∃ row, db.transactions.get payload.eventId = some row ∧ row.accountId = payload.accountId ∧
    row.type = payload.type ∧ row.amount = payload.amount ∧
    row.currency = environment.unicode.upper payload.currency

/-- The ledger holds the transaction that a payload created. -/
def Created (environment : Environment) (payload : Payload) (db : AccountService.Database) : Prop :=
  ∃ command, TransactionCreate.validate environment.unicode payload = some command ∧
    environment.path payload.accountId = command.accountId ∧
    ∀ traceId, db.transactions.get command.eventId =
      some ((Request.mk (environment.path payload.accountId) command traceId).transaction.stored
        environment.accountStorage)

theorem Rejected.grows (rejected : Rejected environment payload db) (grows : db.Grows later) :
    Rejected environment payload later :=
  fun command accepted traceId => (rejected command accepted traceId).grows grows

theorem Recorded.grows (recorded : Recorded environment payload db) (grows : db.Grows later) :
    Recorded environment payload later := by
  obtain ⟨row, present, data⟩ := recorded
  exact ⟨row, grows.transactions present, data⟩

theorem Created.grows (created : Created environment payload db) (grows : db.Grows later) :
    Created environment payload later := by
  obtain ⟨command, accepted, path, stored⟩ := created
  exact ⟨command, accepted, path, fun traceId => grows.transactions (stored traceId)⟩

section Handled

/-- This function handles a payload under the account id of its path. -/
def handled (environment : Environment) (payload : Payload) (traceId : String)
    (db : AccountService.Database) : AccountService.Database × AccountService.Answer :=
  handle environment (environment.path payload.accountId) payload traceId db

theorem handle_grows (environment : Environment) (accountId : String) (payload : Payload)
    (traceId : String) (db : AccountService.Database) :
    db.Grows (handle environment accountId payload traceId db).1 := by
  unfold handle
  split
  · exact .refl db
  · exact Request.apply_grows _ _ db

theorem handle_owned (owned : db.Owned) (accountId : String) :
    (handle environment accountId payload traceId db).1.Owned := by
  unfold handle
  split
  · exact owned
  · exact owned.apply _

theorem handle_counted (lossless : environment.accountStorage.Exact) (owned : db.Owned)
    (counted : db.Counted) (accountId : String) :
    (handle environment accountId payload traceId db).1.Counted := by
  unfold handle
  split
  · exact counted
  · exact counted.apply lossless owned _

/-- A payload is answered with an error exactly when it is rejected. -/
theorem rejected_iff (owned : db.Owned) (traceId : String) : Rejected environment payload db ↔
    400 ≤ (handled environment payload traceId db).2.status := by
  unfold handled handle
  cases accepted : TransactionCreate.validate environment.unicode payload with
  | none =>
      refine iff_of_true (fun command accept => ?_) (show 400 ≤ 422 by decide)
      rw [accepted] at accept
      cases accept
  | some command =>
      have refused := Request.refused_iff environment.accountStorage owned
        ⟨environment.path payload.accountId, command, traceId⟩
      rw [← refused]
      constructor
      · exact fun rejected => rejected command accepted traceId
      · intro refuses other accept other
        obtain rfl := Option.some.inj (accepted.symm.trans accept)
        exact refuses

/-- A payload that is answered without an error is recorded. -/
theorem handled_recorded (lossless : environment.accountStorage.Exact) (owned : db.Owned)
    (answered : (handled environment payload traceId db).2.status < 400) :
    Recorded environment payload (handled environment payload traceId db).1 := by
  unfold handled handle at answered ⊢
  cases accepted : TransactionCreate.validate environment.unicode payload with
  | none =>
      rw [accepted] at answered
      exact absurd answered (show ¬ 422 < 400 by decide)
  | some command =>
      rw [accepted] at answered
      obtain ⟨eventId, accountId, type, amount, currency, _⟩ :=
        TransactionCreate.validate_eq_some accepted
      obtain ⟨row, present, account, kind, sum, code⟩ := Request.apply_records lossless owned
        ⟨environment.path payload.accountId, command, traceId⟩ answered
      exact ⟨row, eventId ▸ present, account.trans accountId, kind.trans type, sum.trans amount,
        code.trans currency⟩

/-- A payload that is answered 201 is created. -/
theorem handled_created (answered : (handled environment payload traceId db).2.status = 201) :
    Created environment payload (handled environment payload traceId db).1 := by
  unfold handled handle at answered ⊢
  cases accepted : TransactionCreate.validate environment.unicode payload with
  | none =>
      rw [accepted] at answered
      cases answered
  | some command =>
      rw [accepted] at answered
      exact ⟨command, accepted, (Request.apply_accepted answered).1,
        fun _ => Request.apply_stores answered⟩

end Handled

/-- The ledger of the system keeps its own invariant and remembers what it answered. -/
structure System.Remembered (environment : Environment) (system : System) : Prop where
  owned : system.account.Owned
  created : ∀ message ∈ system.network, ∀ answer, message.answer = some answer →
    answer.status = 201 → Created environment message.payload system.account
  rejected : ∀ message ∈ system.network, ∀ answer, message.answer = some answer →
    400 ≤ answer.status → Rejected environment message.payload system.account

/-- Every step leaves the ledger as it is or lets it handle one request. -/
theorem System.Step.account (step : System.Step environment system action next) :
    next.account = system.account ∨ ∃ accountId payload traceId,
      next.account = (handle environment accountId payload traceId system.account).1 := by
  cases step with
  | start | wake => exact .inl (System.enter_account ..)
  | ended => exact .inl (System.endAttempt_account ..)
  | act | resume | crash => exact .inl rfl
  | process | direct => exact .inr ⟨_, _, _, rfl⟩

/-- Every step lets the ledger grow. -/
theorem System.Step.grows (step : System.Step environment system action next) :
    system.account.Grows next.account := by
  rcases step.account with same | ⟨accountId, payload, traceId, handled⟩
  · rw [same]
    exact .refl _
  · rw [handled]
    exact handle_grows ..

/-- Every answer of the network is old, or the Account Service has just given it. -/
theorem System.Step.answers (step : System.Step environment system action next) {message : Message}
    (sent : message ∈ next.network) {answer : AccountService.Answer}
    (answered : message.answer = some answer) :
    (∃ earlier ∈ system.network, earlier.payload = message.payload ∧
        earlier.answer = some answer) ∨
      ∃ tag fresh earlier traceId, action = .process tag fresh ∧
        system.network[tag]? = some earlier ∧ earlier.payload = message.payload ∧
        next.account = (handled environment message.payload traceId system.account).1 ∧
        answer = (handled environment message.payload traceId system.account).2 := by
  cases step with
  | start | wake | ended =>
      rcases System.enter_sent sent with old | rfl
      · exact .inl ⟨message, old, rfl, answered⟩
      · cases answered
  | process tag fresh earlier found waits =>
      rcases List.mem_or_eq_of_mem_set sent with old | rfl
      · exact .inl ⟨message, old, rfl, answered⟩
      · exact .inr ⟨tag, fresh, earlier, _, rfl, found, rfl, rfl, (Option.some.inj answered).symm⟩
  | act | resume | direct | crash => exact .inl ⟨message, sent, rfl, answered⟩

/-- Every step keeps the ledger owned. -/
theorem System.Step.owned (step : System.Step environment system action next)
    (owned : system.account.Owned) : next.account.Owned := by
  rcases step.account with same | ⟨accountId, payload, traceId, handled⟩
  · rw [same]
    exact owned
  · rw [handled]
    exact handle_owned owned accountId

/-- Every step keeps what the ledger answered. -/
theorem System.Remembered.step (remembered : system.Remembered environment)
    (step : System.Step environment system action next) : next.Remembered environment := by
  refine ⟨step.owned remembered.owned, fun message sent answer answered status => ?_,
    fun message sent answer answered status => ?_⟩
  · rcases step.answers sent answered with
      ⟨earlier, old, same, given⟩ | ⟨_, _, _, _, _, _, _, after, rfl⟩
    · exact same ▸ (remembered.created earlier old answer given status).grows step.grows
    · exact after ▸ handled_created status
  · rcases step.answers sent answered with
      ⟨earlier, old, same, given⟩ | ⟨_, _, _, _, _, _, _, _, rfl⟩
    · exact same ▸ (remembered.rejected earlier old answer given status).grows step.grows
    · exact ((rejected_iff remembered.owned _).mpr status).grows step.grows

theorem remembered_of_reachable (reached : (twoServices environment).Reachable system) :
    system.Remembered environment :=
  reached.invariant _
    ⟨AccountService.Database.owned_empty, fun _ sent => (by cases sent), fun _ sent => (by cases sent)⟩
    fun _ _ _ _ remembered taken => remembered.step (System.step_cases taken)

end EventLedger.Delivery
