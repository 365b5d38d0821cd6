import EventLedger.AccountService.Effect

namespace EventLedger.AccountService
open Library Python

variable {storage : Storage} {db next : Database} {request : Request}

/-- Each transaction belongs to a stored account of the same currency. -/
def Database.Owned (db : Database) : Prop :=
  ∀ transaction ∈ db.transactions.rows, ∃ account,
    db.accounts.get transaction.accountId = some account ∧
      account.currency = transaction.currency

theorem Database.owned_empty : Database.empty.Owned := by
  intro transaction member
  cases member

theorem Database.balanced_empty : Database.empty.Balanced := by
  intro account member
  cases member

/-- An exact column keeps the signed amount of a transaction. -/
theorem stored_delta (lossless : storage.Exact) (request : Request) :
    (request.transaction.stored storage).delta = request.delta := by
  simp only [Transaction.delta, Transaction.stored, Request.transaction, Request.delta]
  cases request.command.type <;> simp [lossless _]

/-- The signed amount of a command has at most 19 digits. -/
theorem Request.delta_exact (request : Request) : Decimal.Exact request.delta.units := by
  have fits := request.command.amountAccepted.exact
  unfold delta
  split
  · exact fits
  · rw [Decimal.neg_units fits]
    exact fits.neg

/-- An account without a row has no transactions. -/
theorem Database.Owned.transactionsOf_absent (owned : db.Owned) {accountId : String}
    (absent : db.accounts.get accountId = none) : db.transactionsOf accountId = [] := by
  refine List.filter_eq_nil_iff.mpr fun transaction member => ?_
  obtain ⟨account, present, _⟩ := owned transaction member
  intro same
  rw [of_decide_eq_true same, absent] at present
  cases present

/-- A new transaction extends only the list of its own account. -/
theorem Database.transactionsOf_append {transaction : Transaction}
    (rows : next.transactions.rows = db.transactions.rows ++ [transaction]) (accountId : String) :
    next.transactionsOf accountId = db.transactionsOf accountId ++
      if transaction.accountId = accountId then [transaction] else [] := by
  simp only [transactionsOf, rows, List.filter_append, List.filter_cons, List.filter_nil,
    decide_eq_true_eq]

section Created
variable (committed :
  db.commit storage (request.write storage request.newAccount true) = some next)
include committed

/-- A first transaction changes only the read of its own account. -/
theorem created_accounts (accountId : String) :
    next.accounts.get accountId =
      if request.accountId = accountId then
        some (({ request.newAccount with balance := 0 + request.delta } : Account).stored storage)
      else db.accounts.get accountId := by
  obtain ⟨accounts, transactions, inserted, _, rfl⟩ := Database.commit_created committed
  exact Table.get_insert inserted accountId

theorem created_absent : db.accounts.get request.accountId = none := by
  obtain ⟨accounts, transactions, inserted, _, rfl⟩ := Database.commit_created committed
  exact Table.get_of_insert inserted

theorem created_transactions :
    next.transactions.rows = db.transactions.rows ++ [request.transaction.stored storage] := by
  obtain ⟨accounts, transactions, _, stored, rfl⟩ := Database.commit_created committed
  exact Table.rows_insert stored

/-- A first transaction keeps every transaction owned. -/
theorem Database.Owned.created (owned : db.Owned) : next.Owned := by
  intro transaction member
  rw [created_transactions committed, List.mem_append, List.mem_singleton] at member
  rcases member with old | rfl
  · obtain ⟨account, present, sameCurrency⟩ := owned transaction old
    have different : request.accountId ≠ transaction.accountId := by
      intro same
      rw [← same, created_absent committed] at present
      cases present
    exact ⟨account, by rw [created_accounts committed, if_neg different, present], sameCurrency⟩
  · exact ⟨_, by rw [created_accounts committed]; exact if_pos rfl, rfl⟩

/-- A first transaction starts its account with its own signed amount. -/
theorem Database.Balanced.created (lossless : storage.Exact) (owned : db.Owned)
    (balanced : db.Balanced) : next.Balanced := by
  intro account member
  have present := Table.get_of_mem member
  rw [created_accounts committed] at present
  rw [Database.transactionsOf_append (created_transactions committed), signedSum_append]
  have sameAccount : (request.transaction.stored storage).accountId = request.accountId := rfl
  rw [sameAccount]
  by_cases own : request.accountId = account.accountId
  · rw [if_pos own] at present
    obtain rfl := Option.some.inj present
    have empty := owned.transactionsOf_absent (created_absent committed)
    have balance : (0 + request.delta : Decimal).units = request.delta.units := by
      have fits := request.delta_exact
      rw [Decimal.add_units (by simpa using fits), Decimal.zero_units, Int.zero_add]
    simp [Account.stored, lossless _, balance, Request.newAccount, empty, signedSum,
      stored_delta lossless]
  · rw [if_neg own] at present
    rw [if_neg own, balanced account (Table.mem_of_get present)]
    simp [signedSum]

end Created

section Updated
variable {account : Account} (sameAccount : account.accountId = request.accountId)
  (committed : db.commit storage (request.write storage account false) = some next)
include committed

theorem updated_transactions :
    next.transactions.rows = db.transactions.rows ++ [request.transaction.stored storage] := by
  obtain ⟨transactions, stored, rfl⟩ := Database.commit_updated committed
  exact Table.rows_insert stored

include sameAccount

/-- A later transaction overwrites the balance of its own account only. -/
theorem updated_accounts (accountId : String) :
    next.accounts.get accountId =
      if accountId = request.accountId then
        (db.accounts.get request.accountId).map fun row =>
          { row with balance := storage.numeric (account.balance + request.delta) }
      else db.accounts.get accountId := by
  obtain ⟨transactions, _, rfl⟩ := Database.commit_updated committed
  rw [← sameAccount]
  exact db.accounts.get_modify account.accountId
    (fun row => { row with balance := storage.numeric (account.balance + request.delta) })
    (fun _ => rfl) accountId

/-- A later transaction keeps every transaction owned. -/
theorem Database.Owned.updated (owned : db.Owned) {row : Account}
    (present : db.accounts.get request.accountId = some row)
    (sameCurrency : row.currency = request.command.currency) : next.Owned := by
  intro transaction member
  rw [updated_transactions committed, List.mem_append, List.mem_singleton] at member
  rw [updated_accounts sameAccount committed]
  rcases member with old | rfl
  · obtain ⟨account, found, currency⟩ := owned transaction old
    by_cases own : transaction.accountId = request.accountId
    · rw [own, present] at found
      obtain rfl := Option.some.inj found
      exact ⟨{ row with balance := storage.numeric (account.balance + request.delta) },
        by rw [if_pos own, present, Option.map_some], currency⟩
    · exact ⟨account, by rw [if_neg own, found], currency⟩
  · have own : (request.transaction.stored storage).accountId = request.accountId := rfl
    exact ⟨{ row with balance := storage.numeric (account.balance + request.delta) },
      by rw [if_pos own, present, Option.map_some], sameCurrency⟩

/-- A write over a current balance adds the new signed amount exactly. -/
theorem Database.Balanced.updated (lossless : storage.Exact) (balanced : db.Balanced) {row : Account}
    (present : db.accounts.get request.accountId = some row)
    (current : row.balance = account.balance)
    (fits : Decimal.Exact (account.balance.units + request.delta.units)) : next.Balanced := by
  intro other member
  have found := Table.get_of_mem member
  rw [updated_accounts sameAccount committed] at found
  rw [Database.transactionsOf_append (updated_transactions committed), signedSum_append]
  have own : (request.transaction.stored storage).accountId = request.accountId := rfl
  rw [own]
  by_cases same : other.accountId = request.accountId
  · rw [if_pos same, present] at found
    obtain rfl := Option.some.inj found
    have before := balanced row (Table.mem_of_get present)
    have rowId := Table.key_of_get present
    simp only [if_pos same.symm]
    rw [← before, lossless, Decimal.add_units fits, ← current]
    simp [signedSum, stored_delta lossless]
  · rw [if_neg same] at found
    rw [if_neg (Ne.symm same), balanced other (Table.mem_of_get found)]
    simp [signedSum]

end Updated

/-- Silent work changes neither ledger table. -/
theorem silent_tables {work : Work} (silent : work.Silent)
    (committed : db.commit storage work = some next) :
    next.accounts = db.accounts ∧ next.transactions = db.transactions ∧
      next.audit = db.audit ++ work.records := by
  rw [Database.commit_silent silent] at committed
  obtain rfl := Option.some.inj committed
  exact ⟨rfl, rfl, rfl⟩

/-- A later database keeps each account with its currency and each transaction. -/
structure Database.Grows (db next : Database) : Prop where
  accounts : ∀ {accountId : String} {row : Account}, db.accounts.get accountId = some row →
    ∃ later, next.accounts.get accountId = some later ∧ later.currency = row.currency
  transactions : ∀ {eventId : String} {row : Transaction},
    db.transactions.get eventId = some row → next.transactions.get eventId = some row

theorem Database.Grows.refl (db : Database) : db.Grows db :=
  ⟨fun present => ⟨_, present, rfl⟩, fun present => present⟩

/-- An accounts statement keeps each account with its currency. -/
theorem AccountWrite.flush_grows {storage : Storage} {accounts later : Table Account.accountId}
    {write : Option AccountWrite} (flushed : AccountWrite.flush storage accounts write = some later)
    {accountId : String} {row : Account} (present : accounts.get accountId = some row) :
    ∃ kept, later.get accountId = some kept ∧ kept.currency = row.currency := by
  match write, flushed with
  | none, flushed =>
      obtain rfl := Option.some.inj flushed
      exact ⟨row, present, rfl⟩
  | some (.insert account), flushed =>
      have fresh := Table.get_of_insert flushed
      have different : (account.stored storage).accountId ≠ accountId := by
        rintro rfl
        rw [fresh] at present
        cases present
      exact ⟨row, by rw [Table.get_insert flushed, if_neg different, present], rfl⟩
  | some (.update account balance), flushed =>
      obtain rfl := Option.some.inj flushed
      rw [Table.get_modify]
      by_cases own : accountId = account.accountId
      · rw [if_pos own, ← own, present]
        exact ⟨_, rfl, rfl⟩
      · rw [if_neg own]
        exact ⟨row, present, rfl⟩

/-- A transactions statement keeps each transaction. -/
theorem Transaction.flush_grows {storage : Storage} {transactions later : Table Transaction.eventId}
    {write : Option Transaction} (flushed : Transaction.flush storage transactions write = some later)
    {eventId : String} {row : Transaction} (present : transactions.get eventId = some row) :
    later.get eventId = some row := by
  match write, flushed with
  | none, flushed =>
      obtain rfl := Option.some.inj flushed
      exact present
  | some transaction, flushed =>
      have fresh := Table.get_of_insert flushed
      have different : (transaction.stored storage).eventId ≠ eventId := by
        rintro rfl
        rw [fresh] at present
        cases present
      rw [Table.get_insert flushed, if_neg different, present]

/-- Every commit lets the database grow. -/
theorem Database.commit_grows {storage : Storage} {db next : Database} {work : Work}
    (committed : db.commit storage work = some next) : db.Grows next := by
  obtain ⟨accounts, flushed, rest⟩ := Option.bind_eq_some_iff.mp committed
  obtain ⟨transactions, stored, same⟩ := Option.bind_eq_some_iff.mp rest
  obtain rfl := Option.some.inj same
  exact ⟨AccountWrite.flush_grows flushed, Transaction.flush_grows stored⟩

end EventLedger.AccountService
