import EventLedger.Delivery.Ledger
import EventLedger.Delivery.Outcomes

namespace EventLedger.Delivery
open Library Python EventGateway

variable {environment : Environment} {system next : System} {action : Delivery.Action}

/-- The ledger records every request that it answered without an error and counts every transaction
once. -/
structure System.Kept (environment : Environment) (system : System) : Prop where
  recorded : ∀ message ∈ system.network, ∀ answer, message.answer = some answer →
    answer.status < 400 → Recorded environment message.payload system.account
  counted : system.account.Counted

theorem System.Step.counted (lossless : environment.accountStorage.Exact)
    (step : System.Step environment system action next) (owned : system.account.Owned)
    (counted : system.account.Counted) : next.account.Counted := by
  rcases step.account with same | ⟨accountId, payload, traceId, handled⟩
  · rw [same]
    exact counted
  · rw [handled]
    exact handle_counted lossless owned counted accountId

theorem System.Kept.step (lossless : environment.accountStorage.Exact)
    (kept : system.Kept environment) (owned : system.account.Owned)
    (step : System.Step environment system action next) : next.Kept environment := by
  refine ⟨fun message sent answer answered status => ?_, step.counted lossless owned kept.counted⟩
  rcases step.answers sent answered with
    ⟨earlier, old, same, given⟩ | ⟨_, _, _, _, _, _, _, after, rfl⟩
  · exact same ▸ (kept.recorded earlier old answer given status).grows step.grows
  · exact after ▸ handled_recorded lossless owned status

theorem kept_of_reachable (lossless : environment.accountStorage.Exact)
    (reached : (twoServices environment).Reachable system) : system.Kept environment :=
  reached.invariant _
    ⟨fun _ sent => (by cases sent), AccountService.Database.counted_empty⟩
    fun _ _ _ before kept taken =>
      kept.step lossless (remembered_of_reachable before).owned (System.step_cases taken)

/-- An applied event has its transaction in the ledger, no event id has two transactions, and each
balance counts each transaction of its account once. -/
structure System.ExactlyOnce (system : System) : Prop where
  applied : ∀ event ∈ system.gateway.db.events.rows, event.processingStatus = .applied →
    ∃ row ∈ system.account.transactions.rows, row.eventId = event.eventId ∧
      row.accountId = event.accountId ∧ row.type = event.type ∧ row.amount = event.amount ∧
      row.currency = event.currency
  once : (system.account.transactions.rows.map AccountService.Transaction.eventId).Nodup
  counted : ∀ account ∈ system.account.accounts.rows,
    account.balance = AccountService.runningBalance (system.account.transactionsOf account.accountId)
  exact : ∀ account ∈ system.account.accounts.rows,
    (∀ first, first <+: system.account.transactionsOf account.accountId →
      Decimal.Exact (AccountService.signedSum first)) →
    account.balance.units =
      AccountService.signedSum (system.account.transactionsOf account.accountId)

/-- At-least-once delivery has an exactly-once effect in every reachable state. -/
theorem exactly_once (gatewayLossless : environment.gatewayStorage.Exact)
    (accountLossless : environment.accountStorage.Exact)
    (reached : (twoServices environment).Reachable system) : system.ExactlyOnce := by
  have kept := kept_of_reachable accountLossless reached
  refine ⟨fun event member applied => ?_, system.account.transactions.unique, kept.counted,
    fun account member fits => ?_⟩
  · have present := Table.get_of_mem member
    obtain ⟨message, sent, own, answer, given, agrees⟩ :=
      answered_of_reachable reached event.eventId event present (by rw [applied]; rfl)
    rw [applied] at agrees
    obtain ⟨row, stored, accountId, type, amount, currency⟩ :=
      kept.recorded message sent answer given agrees
    have identified := identified_of_reachable reached
    have carried : system.Carries message.payload := .inr ⟨message, sent, rfl⟩
    obtain ⟨held, found, holds⟩ := identified.stored message.payload carried
    rw [own] at found
    obtain rfl := Option.some.inj (present.symm.trans found)
    refine ⟨row, Table.mem_of_get stored, ?_, accountId.trans holds.accountId.symm,
      type.trans holds.type.symm, ?_, ?_⟩
    · exact (Table.key_of_get stored).trans own
    · rw [amount, holds.amount, gatewayLossless]
    · rw [currency, identified.upper message.payload carried, holds.currency]
  · rw [kept.counted account member]
    exact AccountService.runningBalance_units fits

/-- The columns of both services keep amounts and wall clocks, under the default settings. -/
def wallClockEnvironment : Environment where
  unicode := .latin
  settings := .default
  gatewayStorage := .wallClock
  accountStorage := .wallClock
  path accountId := accountId

/-- The answer to the first attempt is lost, and the second attempt is answered. -/
def retried (body : Payload) (statusCode : Nat) : List Delivery.Action :=
  [.arrive 0 body none "trace", .advance 0, .advance 0, .advance 0,
    .call (.submit 0) 0, .process 0 "fresh", .interrupt (.submit 0) (.timeout "timeout") 2,
    .wake (.submit 0), .process 1 "fresh",
    .receive (.submit 0) ⟨statusCode, "application/json", some "", none⟩ 3,
    .resume (.submit 0) 3 .zero]

/-- Both attempts were processed, and the applied event has one row in the ledger. -/
theorem exactly_once_retried : ∃ state,
    (twoServices wallClockEnvironment).run (twoServices wallClockEnvironment).initial
      (retried creditX.body 200) = some state ∧
    state.gateway.db.events.rows.map (fun event => (event.eventId, event.processingStatus)) =
      [("x", .applied)] ∧
    state.account.transactions.rows.map (fun row => (row.eventId, row.accountId, row.amount)) =
      [("x", "a", ⟨100⟩)] ∧ state.ExactlyOnce := by
  obtain ⟨state, ran, observed⟩ := Option.map_eq_some_iff.mp
    (show ((twoServices wallClockEnvironment).run (twoServices wallClockEnvironment).initial
      (retried creditX.body 200)).map (fun state =>
        (state.gateway.db.events.rows.map fun event => (event.eventId, event.processingStatus),
          state.account.transactions.rows.map fun row => (row.eventId, row.accountId, row.amount))) =
        some ([("x", .applied)], [("x", "a", ⟨100⟩)]) by decide)
  obtain ⟨applied, recorded⟩ := Prod.mk.inj observed
  exact ⟨state, ran, applied, recorded, exactly_once Storage.wallClock_exact Storage.wallClock_exact
    (Machine.reachable_of_run _ .initial ran)⟩

end EventLedger.Delivery
