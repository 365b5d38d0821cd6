import EventLedger.AccountService.ExactMoney
import EventLedger.Delivery.Rejection

namespace EventLedger.Delivery
open Library Python EventGateway

/-- Another client posts this transaction to the Account Service without the gateway. -/
def Action.posts : Delivery.Action → Bool
  | .direct _ _ _ => true
  | _ => false

/-- An event and its transaction have these data in common. -/
structure Posting where
  eventId : String
  accountId : String
  type : TransactionType
  amount : Decimal
  currency : String
  eventTimestamp : Datetime
  deriving DecidableEq

namespace Posting

def ofEvent (event : Event) : Posting where
  eventId := event.eventId
  accountId := event.accountId
  type := event.type
  amount := event.amount
  currency := event.currency
  eventTimestamp := event.eventTimestamp

def ofTransaction (row : AccountService.Transaction) : Posting where
  eventId := row.eventId
  accountId := row.accountId
  type := row.type
  amount := row.amount
  currency := row.currency
  eventTimestamp := row.eventTimestamp

/-- A credit adds its amount and a debit subtracts it. -/
def delta (posting : Posting) : Decimal :=
  match posting.type with
  | .credit => posting.amount
  | .debit => -posting.amount

end Posting

/-- The signed sum of some events is exact, in ten-thousandths. -/
def eventSum (events : List Event) : Int :=
  (events.map fun event => (Posting.ofEvent event).delta.units).sum

/-- The stored events of one account whose delivery has created a transaction. -/
def System.landed (system : System) (accountId : String) : List Event :=
  system.gateway.db.events.rows.filter fun event =>
    decide (event.accountId = accountId) &&
      (system.account.transactions.get event.eventId).isSome

/-- The applied events of one account. -/
def System.applied (system : System) (accountId : String) : List Event :=
  system.gateway.db.events.rows.filter fun event =>
    decide (event.accountId = accountId ∧ event.processingStatus = .applied)

variable {environment : Environment} {system next : System} {action : Delivery.Action}
  {db : AccountService.Database} {payload : Payload} {accountId : String}

section Sourced

/-- A handled payload adds one row, with its event id, exactly when it is answered 201. -/
theorem handled_rows (environment : Environment) (payload : Payload) (traceId : String)
    (db : AccountService.Database) :
    (handled environment payload traceId db).1.transactions = db.transactions ∨
      (handled environment payload traceId db).2.status = 201 ∧
        ∃ row, (handled environment payload traceId db).1.transactions.rows =
          db.transactions.rows ++ [row] ∧ row.eventId = payload.eventId := by
  unfold handled handle
  cases accepted : TransactionCreate.validate environment.unicode payload with
  | none => exact .inl rfl
  | some command =>
      by_cases created : (AccountService.Request.apply environment.accountStorage
          ⟨environment.path payload.accountId, command, traceId⟩ db).2.status = 201
      · refine .inr ⟨created, _, (AccountService.Request.apply_accepted created).2, ?_⟩
        exact (TransactionCreate.validate_eq_some accepted).1
      · exact .inl (AccountService.Request.apply_refused created).2

/-- A delivery of the gateway has created every transaction. -/
def System.Sourced (system : System) : Prop :=
  ∀ row ∈ system.account.transactions.rows,
    ∃ message ∈ system.network, message.created ∧ message.payload.eventId = row.eventId

theorem System.Sourced.step (sourced : system.Sourced) (ours : action.posts = false)
    (step : System.Step environment system action next) : next.Sourced := by
  intro row member
  have old (member : row ∈ system.account.transactions.rows) :
      ∃ message ∈ next.network, message.created ∧ message.payload.eventId = row.eventId := by
    obtain ⟨message, sent, created, own⟩ := sourced row member
    obtain ⟨answer, answered, status⟩ := Message.created_iff.mp created
    obtain ⟨tag, found⟩ := List.mem_iff_getElem?.mp sent
    obtain ⟨later, present, same, kept⟩ := step.extends tag message found
    exact ⟨later, List.mem_of_getElem? present,
      Message.created_iff.mpr ⟨answer, kept answer answered, status⟩, same ▸ own⟩
  cases step with
  | start | wake => exact old (System.enter_account .. ▸ member)
  | ended => exact old (System.endAttempt_account .. ▸ member)
  | act | resume | crash => exact old member
  | direct => cases ours
  | process tag fresh message found waits =>
      rcases handled_rows environment message.payload
          (normalizeTraceId (some message.traceId) fresh) system.account with
        same | ⟨status, added, rows, own⟩
      · exact old (congrArg Table.rows same ▸ member)
      · rcases List.mem_append.mp (rows ▸ member) with earlier | new
        · exact old earlier
        · obtain rfl := List.mem_singleton.mp new
          refine ⟨_, List.mem_of_getElem? (List.getElem?_set_self
            (List.getElem?_eq_some_iff.mp found).1), ?_, own.symm⟩
          exact Message.created_iff.mpr ⟨_, rfl, status⟩

theorem sourced_of_reached
    (reached : (twoServices environment).ReachedWithin (fun _ action => action.posts = false) system) :
    system.Sourced :=
  reached.invariant _ (fun _ member => by cases member)
    fun _ _ _ _ sourced ours taken => sourced.step ours (System.step_cases taken)

/-- Each carried payload has a stored event with its timestamp. -/
def System.Stamped (environment : Environment) (system : System) : Prop :=
  ∀ payload, system.Carries payload →
    ∃ event, system.gateway.db.events.get payload.eventId = some event ∧
      event.eventTimestamp = environment.gatewayStorage.dateTime payload.eventTimestamp

theorem System.Stamped.step (stamped : system.Stamped environment)
    (consistent : system.gateway.Consistent environment.gatewayStorage)
    (step : System.Step environment system action next) : next.Stamped environment := by
  intro payload carried
  have kept (carried : system.Carries payload) :
      ∃ event, next.gateway.db.events.get payload.eventId = some event ∧
        event.eventTimestamp = environment.gatewayStorage.dateTime payload.eventTimestamp := by
    obtain ⟨event, present, timestamp⟩ := stamped payload carried
    obtain ⟨later, found, same, _⟩ := step.events consistent present
    exact ⟨later, found, by rw [same]; exact timestamp⟩
  rcases step.carries consistent with old | ⟨fresh, ⟨_, submission, _, rfl, _, row⟩, old⟩
  · exact kept (old payload carried)
  · rcases old payload carried with earlier | rfl
    · exact kept earlier
    · exact ⟨_, row, rfl⟩

theorem stamped_of_reachable (reached : (twoServices environment).Reachable system) :
    system.Stamped environment := by
  refine reached.invariant (fun system => system.Stamped environment) (fun payload carried => ?_)
    fun _ _ _ before stamped taken =>
      stamped.step (consistent_of_reachable (gateway_reachable before)) (System.step_cases taken)
  obtain ⟨event, present, _⟩ := (identified_of_reachable .initial).stored payload carried
  cases present

/-- The transaction of a created payload has the data of its event. -/
theorem Created.posting (created : Created environment payload db)
    (gatewayLossless : environment.gatewayStorage.Exact)
    (accountLossless : environment.accountStorage.Exact)
    (alike : environment.gatewayStorage.dateTime = environment.accountStorage.dateTime)
    (upper : environment.unicode.upper payload.currency = payload.currency) {event : Event}
    (holds : event.Holds environment.gatewayStorage payload)
    (timestamp : event.eventTimestamp =
      environment.gatewayStorage.dateTime payload.eventTimestamp) :
    ∃ row, db.transactions.get payload.eventId = some row ∧
      Posting.ofTransaction row = Posting.ofEvent event := by
  obtain ⟨command, accepted, path, stored⟩ := created
  obtain ⟨eventId, account, type, amount, currency, instant⟩ :=
    TransactionCreate.validate_eq_some accepted
  refine ⟨_, eventId ▸ stored "", ?_⟩
  have kept : (AccountService.Request.mk (environment.path payload.accountId) command
      "").transaction.stored environment.accountStorage =
      ⟨command.eventId, command.accountId, command.type, command.amount, command.currency,
        environment.accountStorage.dateTime command.eventTimestamp⟩ := by
    rw [AccountService.Transaction.stored, accountLossless, AccountService.Request.transaction, path]
  rw [kept, Posting.ofEvent, holds.eventId, holds.accountId, holds.type, holds.amount,
    holds.currency, timestamp, gatewayLossless, alike, ← eventId, ← account, ← type, ← amount,
    ← upper, ← currency, ← instant]
  rfl

end Sourced

section Reconciled

theorem System.mem_landed {event : Event} : event ∈ system.landed accountId ↔
    event ∈ system.gateway.db.events.rows ∧ event.accountId = accountId ∧
      ∃ row, system.account.transactions.get event.eventId = some row := by
  simp [System.landed, Option.isSome_iff_exists]

theorem System.mem_applied {event : Event} : event ∈ system.applied accountId ↔
    event ∈ system.gateway.db.events.rows ∧ event.accountId = accountId ∧
      event.processingStatus = .applied := by
  simp [System.applied]

/-- Every transaction has an event with its data. -/
theorem System.Sourced.posting (sourced : system.Sourced)
    (gatewayLossless : environment.gatewayStorage.Exact)
    (accountLossless : environment.accountStorage.Exact)
    (alike : environment.gatewayStorage.dateTime = environment.accountStorage.dateTime)
    (reached : (twoServices environment).Reachable system) {row : AccountService.Transaction}
    (member : row ∈ system.account.transactions.rows) :
    ∃ event, system.gateway.db.events.get row.eventId = some event ∧
      Posting.ofTransaction row = Posting.ofEvent event := by
  obtain ⟨message, sent, created, own⟩ := sourced row member
  obtain ⟨answer, answered, status⟩ := Message.created_iff.mp created
  have carried : system.Carries message.payload := .inr ⟨message, sent, rfl⟩
  have identified := identified_of_reachable reached
  obtain ⟨event, present, holds⟩ := identified.stored _ carried
  obtain ⟨stampedEvent, found, timestamp⟩ := stamped_of_reachable reached _ carried
  obtain rfl := Option.some.inj (present.symm.trans found)
  have recorded := (remembered_of_reachable reached).created message sent answer answered status
  obtain ⟨stored, kept, same⟩ := recorded.posting gatewayLossless accountLossless alike
    (identified.upper _ carried) holds timestamp
  rw [own] at present kept
  obtain rfl := Option.some.inj ((Table.get_of_mem member).symm.trans kept)
  exact ⟨event, present, same⟩

/-- An applied event has landed. -/
theorem applied_landed (lossless : environment.accountStorage.Exact)
    (reached : (twoServices environment).Reachable system) {event : Event}
    (applied : event ∈ system.applied accountId) : event ∈ system.landed accountId := by
  obtain ⟨member, account, status⟩ := System.mem_applied.mp applied
  obtain ⟨message, sent, own, answer, given, agrees⟩ :=
    answered_of_reachable reached event.eventId event (Table.get_of_mem member)
      (by rw [status]; rfl)
  rw [status] at agrees
  obtain ⟨row, stored, _⟩ :=
    (kept_of_reachable lossless reached).recorded message sent answer given agrees
  exact System.mem_landed.mpr ⟨member, account, row, own ▸ stored⟩

/-- The transactions of an account are its landed events. -/
theorem System.Sourced.perm (sourced : system.Sourced)
    (gatewayLossless : environment.gatewayStorage.Exact)
    (accountLossless : environment.accountStorage.Exact)
    (alike : environment.gatewayStorage.dateTime = environment.accountStorage.dateTime)
    (reached : (twoServices environment).Reachable system) (accountId : String) :
    ((system.account.transactionsOf accountId).map Posting.ofTransaction).Perm
      ((system.landed accountId).map Posting.ofEvent) := by
  have matched {row : AccountService.Transaction}
      (member : row ∈ system.account.transactions.rows) :=
    sourced.posting gatewayLossless accountLossless alike reached member
  have transactions : ((system.account.transactionsOf accountId).map Posting.ofTransaction).Nodup := by
    refine List.Nodup.of_map Posting.eventId ?_
    rw [List.map_map]
    exact system.account.transactions.unique.sublist (List.filter_sublist.map _)
  have events : ((system.landed accountId).map Posting.ofEvent).Nodup := by
    refine List.Nodup.of_map Posting.eventId ?_
    rw [List.map_map]
    exact system.gateway.db.events.unique.sublist (List.filter_sublist.map _)
  refine (List.perm_ext_iff_of_nodup transactions events).mpr fun posting => ?_
  rw [List.mem_map, List.mem_map]
  constructor
  · rintro ⟨row, own, rfl⟩
    obtain ⟨member, account⟩ := List.mem_filter.mp own
    obtain ⟨event, present, same⟩ := matched member
    have eventId : row.eventId = event.eventId := congrArg Posting.eventId same
    refine ⟨event, System.mem_landed.mpr ⟨Table.mem_of_get present, ?_, row, ?_⟩, same.symm⟩
    · rw [← of_decide_eq_true account]
      exact (congrArg Posting.accountId same).symm
    · rw [← eventId]
      exact Table.get_of_mem member
  · rintro ⟨event, landed, rfl⟩
    obtain ⟨member, account, row, present⟩ := System.mem_landed.mp landed
    obtain ⟨other, found, same⟩ := matched (Table.mem_of_get present)
    rw [Table.key_of_get present] at found
    obtain rfl := Option.some.inj ((Table.get_of_mem member).symm.trans found)
    refine ⟨row, List.mem_filter.mpr ⟨Table.mem_of_get present, decide_eq_true ?_⟩, same⟩
    rw [← account]
    exact congrArg Posting.accountId same

/-- Equal postings have equal sums. -/
theorem signedSum_eq_of_perm {rows : List AccountService.Transaction} {events : List Event}
    (same : (rows.map Posting.ofTransaction).Perm (events.map Posting.ofEvent)) :
    AccountService.signedSum rows = eventSum events := by
  have sums := (same.map fun posting => posting.delta.units).sum_eq
  rw [List.map_map, List.map_map] at sums
  exact sums

/-- A balance is the sum of the events that are posted to its account. -/
theorem balance_of_postings (lossless : environment.accountStorage.Exact)
    (reached : (twoServices environment).Reachable system) {events : List Event}
    (postings : ((system.account.transactionsOf accountId).map Posting.ofTransaction).Perm
      (events.map Posting.ofEvent)) {account : AccountService.Account}
    (present : system.account.accounts.get accountId = some account)
    (fits : ∀ first, first <+: system.account.transactionsOf accountId →
      Decimal.Exact (AccountService.signedSum first)) :
    account.balance.units = eventSum events := by
  have counted := (kept_of_reachable lossless reached).counted account (Table.mem_of_get present)
  rw [Table.key_of_get present] at counted
  rw [counted, AccountService.runningBalance_units fits, signedSum_eq_of_perm postings]

/-- The ledger is reconciled with the gateway: the transactions of each account are its landed
events, among them all applied ones, and its balance is their sum. -/
structure System.Reconciled (system : System) (accountId : String) : Prop where
  postings : ((system.account.transactionsOf accountId).map Posting.ofTransaction).Perm
    ((system.landed accountId).map Posting.ofEvent)
  applied : ∀ event ∈ system.applied accountId, event ∈ system.landed accountId
  opened : (∃ account, system.account.accounts.get accountId = some account) ↔
    ∃ event, event ∈ system.landed accountId
  currency : ∀ account, system.account.accounts.get accountId = some account →
    ∀ event ∈ system.landed accountId, event.currency = account.currency
  balance : ∀ account, system.account.accounts.get accountId = some account →
    (∀ first, first <+: system.account.transactionsOf accountId →
      Decimal.Exact (AccountService.signedSum first)) →
    account.balance.units = eventSum (system.landed accountId)

/-- Every stored account of the ledger has a transaction. -/
theorem opened_of_reachable (reached : (twoServices environment).Reachable system) :
    system.account.Opened := by
  refine reached.invariant (fun system => system.account.Opened) (fun _ member => by cases member)
    fun _ _ _ _ opened taken => ?_
  rcases (System.step_cases taken).account with same | ⟨accountId, payload, traceId, handled⟩
  · rw [same]
    exact opened
  · rw [handled, handle]
    split
    · exact opened
    · exact opened.apply _

/-- While only the gateway posts transactions, the ledger stays reconciled with it. -/
theorem ledger_reconciled (gatewayLossless : environment.gatewayStorage.Exact)
    (accountLossless : environment.accountStorage.Exact)
    (alike : environment.gatewayStorage.dateTime = environment.accountStorage.dateTime)
    (reached : (twoServices environment).ReachedWithin (fun _ action => action.posts = false) system)
    (accountId : String) : system.Reconciled accountId := by
  have postings := (sourced_of_reached reached).perm gatewayLossless accountLossless alike
    reached.reachable accountId
  -- The postings carry each fact about a transaction to its event, and back.
  have exists_row {event : Event} (landed : event ∈ system.landed accountId) :
      ∃ row ∈ system.account.transactionsOf accountId,
        Posting.ofTransaction row = Posting.ofEvent event :=
    List.mem_map.mp (postings.mem_iff.mpr (List.mem_map_of_mem landed))
  have owned := (remembered_of_reachable reached.reachable).owned
  refine ⟨postings, fun event => applied_landed accountLossless reached.reachable, ?_,
    fun account present event landed => ?_, fun account present fits => ?_⟩
  · constructor
    · rintro ⟨account, present⟩
      obtain ⟨row, member, own⟩ :=
        opened_of_reachable reached.reachable account (Table.mem_of_get present)
      rw [Table.key_of_get present] at own
      have listed : row ∈ system.account.transactionsOf accountId :=
        List.mem_filter.mpr ⟨member, decide_eq_true own⟩
      obtain ⟨event, landed, _⟩ :=
        List.mem_map.mp (postings.mem_iff.mp (List.mem_map_of_mem listed))
      exact ⟨event, landed⟩
    · rintro ⟨event, landed⟩
      obtain ⟨row, listed, _⟩ := exists_row landed
      obtain ⟨member, own⟩ := List.mem_filter.mp listed
      obtain ⟨account, present, _⟩ := owned row member
      rw [of_decide_eq_true own] at present
      exact ⟨account, present⟩
  · obtain ⟨row, listed, same⟩ := exists_row landed
    obtain ⟨member, own⟩ := List.mem_filter.mp listed
    obtain ⟨other, found, currency⟩ := owned row member
    rw [of_decide_eq_true own] at found
    obtain rfl := Option.some.inj (present.symm.trans found)
    exact (congrArg Posting.currency same).symm.trans currency.symm
  · exact balance_of_postings accountLossless reached.reachable postings present fits

/-- A failed event of a run without a refused redelivery has not landed. -/
theorem System.Sourced.failed_not_landed (sourced : system.Sourced)
    (wallClock : environment.accountStorage.dateTime = Datetime.dropOffset)
    (enabled : environment.settings.asyncFallbackEnabled)
    (reached : (twoServices environment).ReachedWithin
      (fun system action => system.clear environment action) system) {event : Event}
    (member : event ∈ system.gateway.db.events.rows) (failed : event.processingStatus = .failed) :
    event ∉ system.landed accountId := by
  intro landed
  obtain ⟨_, _, row, present⟩ := System.mem_landed.mp landed
  obtain ⟨message, sent, created, own⟩ := sourced row (Table.mem_of_get present)
  rw [Table.key_of_get present] at own
  exact ((decided_of_reached wallClock reached).refuses reached.reachable enabled member failed).2
    message sent own created

/-- Once every event is settled, the ledger holds exactly the applied events, after every run in
which only the gateway posts transactions and a created event is delivered again only with offset
zero and an amount that the column keeps. -/
theorem settled_ledger_reconciled (gatewayLossless : environment.gatewayStorage.Exact)
    (accountLossless : environment.accountStorage.Exact)
    (alike : environment.gatewayStorage.dateTime = environment.accountStorage.dateTime)
    (wallClock : environment.accountStorage.dateTime = Datetime.dropOffset)
    (enabled : environment.settings.asyncFallbackEnabled)
    (reached : (twoServices environment).ReachedWithin
      (fun system action => system.clear environment action ∧ action.posts = false) system)
    (settled : ∀ event ∈ system.gateway.db.events.rows, event.processingStatus.final)
    (accountId : String) :
    ((system.account.transactionsOf accountId).map Posting.ofTransaction).Perm
      ((system.applied accountId).map Posting.ofEvent) ∧
    ∀ account, system.account.accounts.get accountId = some account →
      (∀ first, first <+: system.account.transactionsOf accountId →
        Decimal.Exact (AccountService.signedSum first)) →
      account.balance.units = eventSum (system.applied accountId) := by
  have sourced := sourced_of_reached (reached.mono fun _ _ condition => condition.2)
  have clear := reached.mono fun _ _ condition => condition.1
  have landed : system.landed accountId = system.applied accountId := by
    refine List.filter_congr fun event member => ?_
    rw [Bool.eq_iff_iff, Bool.and_eq_true, decide_eq_true_iff, decide_eq_true_iff,
      Option.isSome_iff_exists]
    refine and_congr_right fun own => ?_
    constructor
    · intro present
      cases status : event.processingStatus with
      | pending | queued => exact absurd (settled event member) (by rw [status]; decide)
      | applied => rfl
      | failed =>
          exact absurd (System.mem_landed.mpr ⟨member, own, present⟩)
            (sourced.failed_not_landed wallClock enabled clear member status)
    · intro applied
      have listed := System.mem_applied.mpr ⟨member, own, applied⟩
      exact (System.mem_landed.mp (applied_landed accountLossless reached.reachable listed)).2.2
  have postings := sourced.perm gatewayLossless accountLossless alike reached.reachable accountId
  rw [landed] at postings
  exact ⟨postings, fun account present fits =>
    balance_of_postings accountLossless reached.reachable postings present fits⟩

/-- Only the deliveries of the gateway reach the ledger, and none of them is refused again. -/
def reconciling (environment : Environment) : Machine System Delivery.Action :=
  (twoServices environment).restrict fun system action =>
    system.clear environment action ∧ action.posts = false

/-- A balance after a lost answer counts the redelivered event once. -/
theorem ledger_reconciled_retried : ∃ state,
    (reconciling wallClockEnvironment).run (reconciling wallClockEnvironment).initial
      (retried creditX.body 200) = some state ∧ state.Reconciled "a" := by
  obtain ⟨state, ran⟩ := Option.isSome_iff_exists.mp
    (show ((reconciling wallClockEnvironment).run (reconciling wallClockEnvironment).initial
      (retried creditX.body 200)).isSome by decide)
  have reached := Machine.reachedWithin_of_run _ .initial ran
  exact ⟨state, ran, ledger_reconciled Storage.wallClock_exact Storage.wallClock_exact rfl
    (reached.mono fun _ _ condition => condition.2) "a"⟩

theorem settled_ledger_reconciled_retried : ∃ state,
    (reconciling wallClockEnvironment).run (reconciling wallClockEnvironment).initial
      (retried creditX.body 200) = some state ∧
    ((state.account.transactionsOf "a").map Posting.ofTransaction).Perm
      ((state.applied "a").map Posting.ofEvent) := by
  obtain ⟨state, ran⟩ := Option.isSome_iff_exists.mp
    (show ((reconciling wallClockEnvironment).run (reconciling wallClockEnvironment).initial
      (retried creditX.body 200)).isSome by decide)
  have final : ((reconciling wallClockEnvironment).run (reconciling wallClockEnvironment).initial
      (retried creditX.body 200)).map (fun state =>
        state.gateway.db.events.rows.all fun event => event.processingStatus.final) = some true := by
    decide +kernel
  rw [ran] at final
  exact ⟨state, ran, (settled_ledger_reconciled Storage.wallClock_exact Storage.wallClock_exact rfl rfl rfl
    (Machine.reachedWithin_of_run _ .initial ran)
    (List.all_eq_true.mp (Option.some.inj final)) "a").1⟩

end Reconciled

end EventLedger.Delivery
