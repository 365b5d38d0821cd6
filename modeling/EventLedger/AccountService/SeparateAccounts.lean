import EventLedger.AccountService.OrderIndependence
import EventLedger.AccountService.Routes

namespace EventLedger.AccountService
open Library Python

variable {storage : Storage} {db first second : Database} {request : Request}
  {owner : String → String}

/-- The path of a request names its account. -/
def ApiRequest.accountId : ApiRequest → String
  | .applyTransaction request => request.accountId
  | .getBalance accountId | .getAccount accountId => accountId

/-- A post to the account of its command uses an event id of this account. -/
def ApiRequest.UsesOwn (owner : String → String) : ApiRequest → Prop
  | .applyTransaction request =>
      request.accountId = request.command.accountId →
        owner request.command.eventId = request.accountId
  | .getBalance _ | .getAccount _ => True

/-- An account sees its row, its transactions and the rows of its event ids. -/
structure AccountView where
  account : Option Account
  transactions : List Transaction
  used : String → Option Transaction

def Database.view (owner : String → String) (db : Database) (accountId : String) : AccountView where
  account := db.accounts.get accountId
  transactions := db.transactionsOf accountId
  used eventId := if owner eventId = accountId then db.transactions.get eventId else none

section Views

/-- Equal views of an account store the same row under each of its event ids. -/
theorem view_get {accountId eventId : String}
    (same : first.view owner accountId = second.view owner accountId)
    (owned : owner eventId = accountId) :
    first.transactions.get eventId = second.transactions.get eventId := by
  have used := congrFun (congrArg AccountView.used same) eventId
  simpa only [Database.view, if_pos owned] using used

/-- A post prepares the same work from equal views of its account. -/
theorem Request.begin_view
    (own : request.accountId = request.command.accountId →
      owner request.command.eventId = request.accountId)
    (same : first.view owner request.accountId = second.view owner request.accountId) :
    request.begin storage first = request.begin storage second := by
  by_cases addressed : request.accountId = request.command.accountId
  · exact Request.begin_congr (view_get same (own addressed)) (congrArg AccountView.account same)
  · rw [Request.begin, Request.begin, if_pos addressed, if_pos addressed]

/-- Views are equal when they have the same account, transactions and rows of their event ids. -/
theorem view_congr {accountId : String}
    (account : first.accounts.get accountId = second.accounts.get accountId)
    (transactions : first.transactionsOf accountId = second.transactionsOf accountId)
    (used : ∀ eventId, owner eventId = accountId →
      first.transactions.get eventId = second.transactions.get eventId) :
    first.view owner accountId = second.view owner accountId := by
  rw [Database.view, Database.view, account, transactions]
  congr 1
  funext eventId
  by_cases owned : owner eventId = accountId
  · rw [if_pos owned, if_pos owned, used eventId owned]
  · rw [if_neg owned, if_neg owned]

/-- A refused post keeps every view. -/
theorem Request.refused_view (refused : (request.apply storage db).2.status ≠ 201)
    (accountId : String) :
    (request.apply storage db).1.view owner accountId = db.view owner accountId := by
  obtain ⟨accounts, transactions⟩ := Request.apply_refused refused
  apply view_congr
  · rw [accounts]
  · rw [Database.transactionsOf, transactions, Database.transactionsOf]
  · intro eventId _
    rw [transactions]

/-- The table after an accepted post finds its transaction and all earlier ones. -/
theorem Request.accepted_get (accepted : (request.apply storage db).2.status = 201)
    (eventId : String) :
    (request.apply storage db).1.transactions.get eventId =
      if request.command.eventId = eventId then some (request.transaction.stored storage)
      else db.transactions.get eventId := by
  rcases request.apply_cases storage db with
    ⟨refused, _⟩ | ⟨_, _, _, created | ⟨_, _, _, updated⟩⟩
  · exact absurd accepted refused
  · obtain ⟨_, transactions, _, stored, same⟩ := Database.commit_created created
    rw [same]
    exact Table.get_insert stored eventId
  · obtain ⟨transactions, stored, same⟩ := Database.commit_updated updated
    rw [same]
    exact Table.get_insert stored eventId

/-- An accepted post keeps the view of every other account. -/
theorem Request.accepted_view_other (accepted : (request.apply storage db).2.status = 201)
    (own : owner request.command.eventId = request.accountId) {accountId : String}
    (other : request.accountId ≠ accountId) :
    (request.apply storage db).1.view owner accountId = db.view owner accountId := by
  obtain ⟨_, rows⟩ := Request.apply_accepted accepted
  have stranger : (request.transaction.stored storage).accountId ≠ accountId := other
  apply view_congr
  · rw [(Request.accepted_accounts accepted accountId).2, if_neg other]
  · rw [Database.transactionsOf_append rows accountId, if_neg stranger, List.append_nil]
  · intro eventId owned
    have different : request.command.eventId ≠ eventId := by
      intro equal
      exact other (own.symm.trans (equal ▸ owned))
    rw [Request.accepted_get accepted, if_neg different]

/-- An accepted post changes equal views of its account alike. -/
theorem Request.accepted_view_own (accepted : (request.apply storage first).2.status = 201)
    (reaccepted : (request.apply storage second).2.status = 201)
    (same : first.view owner request.accountId = second.view owner request.accountId) :
    (request.apply storage first).1.view owner request.accountId =
      (request.apply storage second).1.view owner request.accountId := by
  have account : request.account first = request.account second :=
    congrArg (fun account : Option Account => account.getD request.newAccount)
      (congrArg AccountView.account same)
  have transactions : first.transactionsOf request.accountId =
      second.transactionsOf request.accountId := congrArg AccountView.transactions same
  apply view_congr
  · rw [(Request.accepted_accounts accepted _).2, (Request.accepted_accounts reaccepted _).2,
      if_pos rfl, if_pos rfl, account]
  · rw [Database.transactionsOf_append (Request.apply_accepted accepted).2,
      Database.transactionsOf_append (Request.apply_accepted reaccepted).2, transactions]
  · intro eventId owned
    rw [Request.accepted_get accepted, Request.accepted_get reaccepted, view_get same owned]

end Views

/-- The accounts of the service are separate as long as each event id belongs to one of them. -/
theorem accountService_separates (storage : Storage) (limit : Nat) (owner : String → String) :
    (accountService storage limit).Separates (ApiRequest.UsesOwn owner) ApiRequest.accountId
      (Database.view owner) where
  own {first second request} own same := by
    cases request with
    | applyTransaction request =>
        have begun : request.begin storage first = request.begin storage second :=
          Request.begin_view own same
        have answered : (request.apply storage first).2 = (request.apply storage second).2 := by
          rw [(request.apply_eq storage first).2, (request.apply_eq storage second).2, begun]
        refine ⟨congrArg applyTransaction answered, ?_⟩
        by_cases accepted : (request.apply storage first).2.status = 201
        · exact Request.accepted_view_own accepted (answered ▸ accepted) same
        · exact (Request.refused_view accepted _).trans
            (same.trans (Request.refused_view (answered ▸ accepted) _).symm)
    | getBalance accountId =>
        have account : first.accounts.get accountId = second.accounts.get accountId :=
          congrArg AccountView.account same
        refine ⟨?_, same⟩
        simp only [accountService, Database.getBalance, account]
    | getAccount accountId =>
        have account : first.accounts.get accountId = second.accounts.get accountId :=
          congrArg AccountView.account same
        have transactions : first.transactionsOf accountId = second.transactionsOf accountId :=
          congrArg AccountView.transactions same
        refine ⟨?_, same⟩
        simp only [accountService, Database.getAccount, Database.recentTransactions, account,
          transactions]
  other db request accountId own other := by
    cases request with
    | applyTransaction request =>
        by_cases accepted : (request.apply storage db).2.status = 201
        · exact Request.accepted_view_other accepted (own (Request.apply_accepted accepted).1) other
        · exact Request.refused_view accepted accountId
    | getBalance | getAccount => rfl

/-- The posts of a list of requests. -/
def posts (requests : List ApiRequest) : List Request :=
  requests.filterMap fun
    | .applyTransaction request => some request
    | .getBalance _ | .getAccount _ => none

/-- No event id is posted to two accounts. -/
def SeparateIds (requests : List ApiRequest) : Prop :=
  ∀ first ∈ posts requests, ∀ second ∈ posts requests,
    first.accountId = first.command.accountId → second.accountId = second.command.accountId →
      first.command.eventId = second.command.eventId → first.accountId = second.accountId

instance (requests : List ApiRequest) : Decidable (SeparateIds requests) :=
  inferInstanceAs (Decidable (∀ first ∈ posts requests, ∀ second ∈ posts requests, _ → _))

/-- Separate event ids belong to the accounts to which they are posted. -/
theorem SeparateIds.exists_owner {requests : List ApiRequest} (separate : SeparateIds requests) :
    ∃ owner, ∀ request ∈ requests, request.UsesOwn owner := by
  classical
  let posted (eventId : String) (request : Request) : Prop :=
    request ∈ posts requests ∧ request.accountId = request.command.accountId ∧
      request.command.eventId = eventId
  refine ⟨fun eventId => if found : ∃ request, posted eventId request then
    found.choose.accountId else "", ?_⟩
  intro request member
  cases request with
  | applyTransaction request =>
      intro addressed
      have post : request ∈ posts requests := List.mem_filterMap.mpr ⟨_, member, rfl⟩
      have found : ∃ other, posted request.command.eventId other := ⟨request, post, addressed, rfl⟩
      obtain ⟨listed, own, sameId⟩ := found.choose_spec
      exact (dif_pos found).trans (separate _ listed request post own addressed sameId)
  | getBalance | getAccount => trivial

/-- When no event id is posted to two accounts, the requests to each account are answered as if
there were no other account. -/
theorem accounts_answered_alone (limit : Nat) {requests : List ApiRequest}
    (separate : SeparateIds requests) (accountId : String) :
    let own := requests.filter fun request => decide (request.accountId = accountId)
    (requests.zip ((accountService storage limit).respond .empty requests).2).filter (fun exchange =>
        decide (exchange.1.accountId = accountId)) =
      own.zip ((accountService storage limit).respond .empty own).2 := by
  obtain ⟨owner, uses⟩ := separate.exists_owner
  exact (accountService_separates storage limit owner).alone accountId requests uses rfl

/-- This credit goes to the second account. -/
def creditSecond : TransactionCreate :=
  { creditZ with accountId := "c", accountIdLength := by decide }

/-- Two accounts are opened, a credit of the first one is replayed and both are read. -/
def twoAccounts : List ApiRequest :=
  [.applyTransaction (.direct creditX "trace"), .applyTransaction (.direct creditSecond "trace"),
    .applyTransaction (.direct creditX "again"), .getAccount "c", .getBalance "a"]

theorem accounts_answered_alone_two :
    let own := twoAccounts.filter fun request => decide (request.accountId = "a")
    (twoAccounts.zip ((accountService .wallClock 20).respond .empty twoAccounts).2).filter
        (fun exchange => decide (exchange.1.accountId = "a")) =
      own.zip ((accountService .wallClock 20).respond .empty own).2 ∧
    ((accountService .wallClock 20).respond .empty own).2[2]? =
      some (.balance ⟨"a", "USD", ⟨100⟩⟩) :=
  ⟨accounts_answered_alone 20 (by decide +kernel) "a", by decide +kernel⟩

end EventLedger.AccountService
