import EventLedger.AccountService.OrderIndependence
import EventLedger.AccountService.Redelivery
import EventLedger.AccountService.Routes

namespace EventLedger.AccountService
open Library Python

/-- The journal lists the accepted transactions, and every account is derived from it. -/
abbrev Journal := List Transaction

namespace Journal

def entry (journal : Journal) (eventId : String) : Option Transaction :=
  journal.find? fun row => decide (row.eventId = eventId)

/-- The entries of one account. -/
def of (journal : Journal) (accountId : String) : Journal :=
  journal.filter fun row => decide (row.accountId = accountId)

/-- The first entry of an account opens it in its currency, and each entry moves the balance. -/
def account (journal : Journal) (accountId : String) : Option Account :=
  (journal.of accountId).head?.map fun first =>
    ⟨accountId, first.currency, runningBalance (journal.of accountId)⟩

/-- The answer about an entry tells the account of the entry as it is now. -/
def answer (journal : Journal) (row : Transaction) (idempotentReplay : Bool) : Answer :=
  match journal.account row.accountId with
  | none => .unhandled
  | some account => .result {
      eventId := row.eventId
      accountId := row.accountId
      applied := true
      idempotentReplay := idempotentReplay
      balance := account.balance
      currency := account.currency }

/-- A new event of the right account and currency is appended, and an old one is compared. -/
def post (storage : Storage) (journal : Journal) (request : Request) : Journal × Answer :=
  if request.accountId ≠ request.command.accountId then (journal, accountIdMismatch)
  else
    match journal.entry request.command.eventId with
    | some row =>
        match sameTransaction row request.command with
        | none => (journal, .unhandled)
        | some false =>
            (journal, eventIdConflict "eventId already exists with different transaction data")
        | some true => (journal, journal.answer row true)
    | none =>
        if (journal.account request.accountId).any fun account =>
            decide (account.currency ≠ request.command.currency)
        then (journal, currencyMismatch)
        else
          let row := request.transaction.stored storage
          let extended : Journal := journal ++ [row]
          (extended, extended.answer row false)

def getBalance (journal : Journal) (accountId : String) : ApiResponse :=
  match journal.account accountId with
  | none => accountNotFound
  | some account => .balance account.response

/-- The latest entries of the account by their stored instants come first. -/
def getAccount (recentTransactionsLimit : Nat) (journal : Journal) (accountId : String) :
    ApiResponse :=
  match journal.account accountId with
  | none => accountNotFound
  | some account => .account {
      account.response with
      recentTransactions :=
        ((orderBy Transaction.recentKey (journal.of accountId)).take recentTransactionsLimit).map
          TransactionView.modelValidate }

end Journal

/-- The journal serves the requests of the Account Service without a table of accounts. -/
def journalService (storage : Storage) (recentTransactionsLimit : Nat) :
    Responder Journal ApiRequest ApiResponse where
  initial := []
  serve journal
    | .applyTransaction request =>
        ((journal.post storage request).1, applyTransaction (journal.post storage request).2)
    | .getBalance accountId => (journal, journal.getBalance accountId)
    | .getAccount accountId => (journal, journal.getAccount recentTransactionsLimit accountId)

/-- A database keeps a journal when its rows are the entries and its accounts are derived from it. -/
structure Database.Keeps (db : Database) (journal : Journal) : Prop where
  rows : db.transactions.rows = journal
  accounts : ∀ accountId, db.accounts.get accountId = journal.account accountId

variable {storage : Storage} {request : Request} {db : Database} {journal : Journal}

theorem Journal.of_append (row : Transaction) (accountId : String) :
    Journal.of (journal ++ [row]) accountId =
      journal.of accountId ++ if row.accountId = accountId then [row] else [] := by
  rw [Journal.of, List.filter_append, ← Journal.of]
  by_cases own : row.accountId = accountId <;> simp [own]

/-- One more entry opens its account or moves its balance, and leaves the other accounts. -/
theorem Journal.account_append (row : Transaction) (accountId : String) :
    Journal.account (journal ++ [row]) accountId =
      if row.accountId = accountId then
        some { (journal.account accountId).getD ⟨accountId, row.currency, 0⟩ with
          balance := ((journal.account accountId).getD ⟨accountId, row.currency, 0⟩).balance +
            row.delta }
      else journal.account accountId := by
  rw [Journal.account, Journal.account, Journal.of_append]
  by_cases own : row.accountId = accountId
  · rw [if_pos own, if_pos own]
    cases journal.of accountId with
    | nil => rfl
    | cons first rest => simp [runningBalance]
  · rw [if_neg own, if_neg own, List.append_nil]

namespace Database.Keeps

theorem entry (keeps : db.Keeps journal) (eventId : String) :
    db.transactions.get eventId = journal.entry eventId := by
  rw [← keeps.rows]
  rfl

/-- A refused request keeps the journal. -/
theorem refused (keeps : db.Keeps journal) (refused : (request.apply storage db).2.status ≠ 201) :
    (request.apply storage db).1.Keeps journal := by
  obtain ⟨accounts, transactions⟩ := Request.apply_refused refused
  exact ⟨transactions ▸ keeps.rows, accounts ▸ keeps.accounts⟩

/-- An accepted request appends its entry. -/
theorem accepted (lossless : storage.Exact) (keeps : db.Keeps journal)
    (accepted : (request.apply storage db).2.status = 201) :
    (request.apply storage db).1.Keeps (journal ++ [request.transaction.stored storage]) where
  rows := by rw [(Request.apply_accepted accepted).2, keeps.rows]
  accounts accountId := by
    rw [(Request.accepted_accounts accepted accountId).2, Journal.account_append, keeps.accounts]
    have own : (request.transaction.stored storage).accountId = request.accountId := rfl
    rw [own]
    by_cases same : request.accountId = accountId
    · subst same
      rw [if_pos rfl, if_pos rfl, lossless, stored_delta lossless, Request.account, keeps.accounts]
      rfl
    · rw [if_neg same, if_neg same]

/-- The result of an accepted request tells the account that its entry leaves. -/
theorem answer_write (lossless : storage.Exact) (request : Request) (journal : Journal)
    (created : Bool) :
    (request.write storage ((journal.account request.accountId).getD request.newAccount)
        created).answer =
      Journal.answer (journal ++ [request.transaction.stored storage])
        (request.transaction.stored storage) false := by
  have own : (request.transaction.stored storage).accountId = request.accountId := rfl
  rw [Journal.answer, Journal.account_append, if_pos rfl, own, stored_delta lossless,
    Request.write, lossless]
  rfl

/-- A replay tells the account of its entry. -/
theorem answer_replay (keeps : db.Keeps journal)
    (addressed : request.accountId = request.command.accountId) {row : Transaction}
    (compared : sameTransaction row request.command = some true) :
    (request.replay db row).answer = journal.answer row true := by
  have own : row.accountId = request.accountId := (sameTransaction_data compared).1.trans addressed.symm
  simp only [Request.replay, Work.audited, replayAnswer, Journal.answer, keeps.accounts, own]
  cases journal.account request.accountId <;> rfl

/-- The Account Service and the journal treat a request alike. -/
theorem post (lossless : storage.Exact) (keeps : db.Keeps journal) (request : Request) :
    (request.apply storage db).2 = (journal.post storage request).2 ∧
      (request.apply storage db).1.Keeps (journal.post storage request).1 := by
  have answered := (request.apply_eq storage db).2
  generalize begun : request.begin storage db = work at answered
  unfold Journal.post
  cases begun ▸ request.begins storage db with
  | path different =>
      rw [if_pos different]
      exact ⟨answered, keeps.refused fun accepted => by rw [answered] at accepted; cases accepted⟩
  | compare _ addressed compares =>
      rw [if_neg (not_not.mpr addressed)]
      cases compares with
      | undefined existing present compared =>
          simp only [← keeps.entry, present, compared]
          exact ⟨answered, keeps.refused (Request.apply_used (by simp [present]))⟩
      | conflict existing present compared =>
          simp only [← keeps.entry, present, compared]
          exact ⟨answered, keeps.refused (Request.apply_used (by simp [present]))⟩
      | replay existing present compared =>
          simp only [← keeps.entry, present, compared]
          exact ⟨answered.trans (keeps.answer_replay addressed compared),
            keeps.refused (Request.apply_used (by simp [present]))⟩
  | create addressed fresh absent =>
      have written := answer_write lossless request journal true
      rw [← keeps.accounts, absent] at written
      simp only [ne_eq, addressed, not_true_eq_false, if_false, ← keeps.entry, fresh, ← keeps.accounts]
      rw [if_neg (by simp [← addressed, absent])]
      exact ⟨answered.trans written, keeps.accepted lossless (by rw [answered]; rfl)⟩
  | currency account addressed fresh present different =>
      simp only [ne_eq, addressed, not_true_eq_false, if_false, ← keeps.entry, fresh, ← keeps.accounts]
      rw [if_pos (by simp [← addressed, present, different])]
      exact ⟨answered, keeps.refused fun accepted => by rw [answered] at accepted; cases accepted⟩
  | update account addressed fresh present same =>
      have written := answer_write lossless request journal false
      rw [← keeps.accounts, present] at written
      simp only [ne_eq, addressed, not_true_eq_false, if_false, ← keeps.entry, fresh, ← keeps.accounts]
      rw [if_neg (by simp [← addressed, present, same])]
      exact ⟨answered.trans written, keeps.accepted lossless (by rw [answered]; rfl)⟩

theorem getBalance (keeps : db.Keeps journal) (accountId : String) :
    db.getBalance accountId = journal.getBalance accountId := by
  cases present : journal.account accountId <;>
    simp [Database.getBalance, Journal.getBalance, keeps.accounts, present]

theorem getAccount (keeps : db.Keeps journal) (limit : Nat) (accountId : String) :
    db.getAccount limit accountId = journal.getAccount limit accountId := by
  have rows : db.transactionsOf accountId = journal.of accountId := by
    rw [Database.transactionsOf, keeps.rows]
    rfl
  cases present : journal.account accountId <;>
    simp [Database.getAccount, Journal.getAccount, keeps.accounts, Database.recentTransactions, rows,
      present]

end Database.Keeps

/-- The tables of the Account Service implement the journal. -/
theorem accountService_refines (lossless : storage.Exact) (limit : Nat) :
    (accountService storage limit).Refines (journalService storage limit) Database.Keeps where
  initially := ⟨rfl, fun _ => rfl⟩
  serves {db journal} keeps request := by
    cases request with
    | applyTransaction request =>
        obtain ⟨answered, kept⟩ := keeps.post lossless request
        exact ⟨congrArg applyTransaction answered, kept⟩
    | getBalance accountId => exact ⟨keeps.getBalance accountId, keeps⟩
    | getAccount accountId => exact ⟨keeps.getAccount limit accountId, keeps⟩

/-- The Account Service answers every sequence of posts and reads as the journal does: balances and
recent transactions follow from the accepted transactions alone. -/
theorem service_answers_as_journal (lossless : storage.Exact) (limit : Nat)
    (requests : List ApiRequest) :
    ((accountService storage limit).respond .empty requests).2 =
      ((journalService storage limit).respond [] requests).2 ∧
    ((accountService storage limit).respond .empty requests).1.Keeps
      ((journalService storage limit).respond [] requests).1 :=
  (accountService_refines lossless limit).respond requests ⟨rfl, fun _ => rfl⟩

/-- A first credit opens the account, its replay and a conflict are answered, and two reads follow. -/
def creditThenRead : List ApiRequest :=
  [.getBalance "a", .applyTransaction (.direct creditX "trace"),
    .applyTransaction (.direct creditX "again"), .applyTransaction (.direct creditReused "trace"),
    .getBalance "a", .getAccount "a"]

/-- The answers of the example name the balance of one credit after each step. -/
theorem service_answers_as_journal_credit :
    ((accountService .wallClock 20).respond .empty creditThenRead).2 =
      ((journalService .wallClock 20).respond [] creditThenRead).2 ∧
    ((accountService .wallClock 20).respond .empty creditThenRead).2[4]? =
      some (.balance ⟨"a", "USD", ⟨100⟩⟩) :=
  ⟨(service_answers_as_journal Storage.wallClock_exact 20 creditThenRead).1, by decide +kernel⟩

end EventLedger.AccountService
