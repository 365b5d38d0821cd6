import EventLedger.AccountService.History

namespace EventLedger.AccountService
open Library Python

variable {storage : Storage} {db next : Database} {request : Request}

/-- A request is refused for its path, for the transaction under its event id or for the currency of
its account. -/
def Request.Refused (request : Request) (db : Database) : Prop :=
  request.accountId ≠ request.command.accountId ∨
    (∃ row, db.transactions.get request.command.eventId = some row ∧
      sameTransaction row request.command ≠ some true) ∨
    ∃ account, db.accounts.get request.accountId = some account ∧
      account.currency ≠ request.command.currency

/-- A refused request stays refused. -/
theorem Request.Refused.grows (refused : request.Refused db) (grows : db.Grows next) :
    request.Refused next := by
  rcases refused with path | ⟨row, present, different⟩ | ⟨account, present, currency⟩
  · exact .inl path
  · exact .inr (.inl ⟨row, grows.transactions present, different⟩)
  · obtain ⟨later, found, kept⟩ := grows.accounts present
    exact .inr (.inr ⟨later, found, kept ▸ currency⟩)

/-- A request that runs alone lets the database grow. -/
theorem Request.apply_grows (storage : Storage) (request : Request) (db : Database) :
    db.Grows (request.apply storage db).1 :=
  Database.commit_grows (request.apply_eq storage db).1

/-- The fields of an identical transaction are those of the command. -/
theorem sameTransaction_data {row : Transaction} {command : TransactionCreate}
    (same : sameTransaction row command = some true) :
    row.accountId = command.accountId ∧ row.type = command.type ∧ row.amount = command.amount ∧
      row.currency = command.currency := by
  unfold sameTransaction at same
  split at same
  · next data => exact data
  · cases same

/-- An addressed request is not refused when it replays or finds no other currency. -/
theorem Request.not_refused (addressed : request.accountId = request.command.accountId)
    (identical : ∀ row, db.transactions.get request.command.eventId = some row →
      sameTransaction row request.command = some true)
    (matching : ∀ account, db.accounts.get request.accountId = some account →
      account.currency = request.command.currency) : ¬ request.Refused db := by
  rintro (path | ⟨row, stored, different⟩ | ⟨account, stored, different⟩)
  · exact path addressed
  · exact different (identical row stored)
  · exact different (matching account stored)

/-- The work of an addressed request compares with the stored transaction: it refuses the request or
replays an identical transaction. -/
theorem Request.Compares.status {message : String} {work : Work} (owned : db.Owned)
    (addressed : request.accountId = request.command.accountId)
    (compares : request.Compares db message work) :
    (request.Refused db ∧ 400 ≤ work.answer.status) ∨
    (¬ request.Refused db ∧ work.answer.status = 200 ∧
      ∃ row, db.transactions.get request.command.eventId = some row ∧
        sameTransaction row request.command = some true) := by
  cases compares with
  | undefined existing present none =>
      exact .inl ⟨.inr (.inl ⟨existing, present, by rw [none]; simp⟩), show 400 ≤ 500 by decide⟩
  | conflict existing present different =>
      exact .inl ⟨.inr (.inl ⟨existing, present, by rw [different]; simp⟩), show 400 ≤ 409 by decide⟩
  | replay existing present same =>
      obtain ⟨account, found, currency⟩ := owned existing (Table.mem_of_get present)
      obtain ⟨sameAccount, _, _, sameCurrency⟩ := sameTransaction_data same
      have own : db.accounts.get request.accountId = some account := by
        rw [addressed, ← sameAccount, found]
      refine .inr ⟨Request.not_refused addressed ?_ ?_, ?_, existing, present, same⟩
      · rw [present]
        rintro row ⟨⟩
        exact same
      · rw [own]
        rintro other ⟨⟩
        exact currency.trans sameCurrency
      · simp only [Request.replay, Work.audited, own, replayAnswer]
        rfl

/-- A request that runs alone is refused, replays an identical transaction or is accepted. -/
theorem Request.apply_status (storage : Storage) (owned : db.Owned) (request : Request) :
    (request.Refused db ∧ 400 ≤ (request.apply storage db).2.status) ∨
    (¬ request.Refused db ∧ (request.apply storage db).2.status = 200 ∧
      ∃ row, db.transactions.get request.command.eventId = some row ∧
        sameTransaction row request.command = some true) ∨
    (¬ request.Refused db ∧ (request.apply storage db).2.status = 201 ∧
      db.transactions.get request.command.eventId = none) := by
  rw [(request.apply_eq storage db).2]
  generalize begun : request.begin storage db = work
  cases begun ▸ request.begins storage db with
  | path different => exact .inl ⟨.inl different, show 400 ≤ 422 by decide⟩
  | compare _ addressed compares =>
      exact (compares.status owned addressed).imp id .inl
  | create addressed fresh absent =>
      refine .inr (.inr ⟨Request.not_refused addressed ?_ ?_, rfl, fresh⟩)
      · simp [fresh]
      · simp [absent]
  | currency account _ _ present different =>
      exact .inl ⟨.inr (.inr ⟨account, present, different⟩), show 400 ≤ 409 by decide⟩
  | update account addressed fresh present same =>
      refine .inr (.inr ⟨Request.not_refused addressed ?_ ?_, rfl, fresh⟩)
      · simp [fresh]
      · rw [present]
        rintro other ⟨⟩
        exact same

/-- A request is answered with an error exactly when it is refused. -/
theorem Request.refused_iff (storage : Storage) (owned : db.Owned) (request : Request) :
    request.Refused db ↔ 400 ≤ (request.apply storage db).2.status := by
  rcases request.apply_status storage owned with
    ⟨refused, error⟩ | ⟨accepted, status, _⟩ | ⟨accepted, status, _⟩
  · exact iff_of_true refused error
  · exact iff_of_false accepted (by omega)
  · exact iff_of_false accepted (by omega)

/-- An accepted request stores its transaction. -/
theorem Request.apply_stores (accepted : (request.apply storage db).2.status = 201) :
    (request.apply storage db).1.transactions.get request.command.eventId =
      some (request.transaction.stored storage) := by
  have rows := (Request.apply_accepted accepted).2
  have member : request.transaction.stored storage ∈
      (request.apply storage db).1.transactions.rows := by
    rw [rows]
    exact List.mem_append_right _ (List.mem_singleton_self _)
  exact Table.get_of_mem member

/-- After an answer without an error the ledger holds a transaction with the data of the command. -/
theorem Request.apply_records (lossless : storage.Exact) (owned : db.Owned) (request : Request)
    (answered : (request.apply storage db).2.status < 400) :
    ∃ row, (request.apply storage db).1.transactions.get request.command.eventId = some row ∧
      row.accountId = request.command.accountId ∧ row.type = request.command.type ∧
      row.amount = request.command.amount ∧ row.currency = request.command.currency := by
  rcases request.apply_status storage owned with
    ⟨_, error⟩ | ⟨_, _, row, present, same⟩ | ⟨_, accepted, _⟩
  · omega
  · exact ⟨row, (request.apply_grows storage db).transactions present, sameTransaction_data same⟩
  · exact ⟨_, Request.apply_stores accepted, (Request.apply_accepted accepted).1, rfl,
      lossless _, rfl⟩

/-- A stored command is identical to itself when its offset is zero and the column keeps its amount. -/
theorem sameTransaction_own (request : Request)
    (wallClock : storage.dateTime = Datetime.dropOffset)
    (addressed : request.accountId = request.command.accountId)
    (utc : request.command.eventTimestamp.offset = 0)
    (kept : storage.numeric request.command.amount = request.command.amount) :
    sameTransaction (request.transaction.stored storage) request.command = some true := by
  have data : (request.transaction.stored storage).accountId = request.command.accountId ∧
      (request.transaction.stored storage).type = request.command.type ∧
      (request.transaction.stored storage).amount = request.command.amount ∧
      (request.transaction.stored storage).currency = request.command.currency :=
    ⟨addressed, rfl, kept, rfl⟩
  have converted := Datetime.utcNaive_of_offset utc
  have wall : (request.transaction.stored storage).eventTimestamp =
      request.command.eventTimestamp.dropOffset := by
    simp only [Transaction.stored, Request.transaction, wallClock]
  rw [sameTransaction, if_pos data, wall, Datetime.dropOffset_utcNaive, converted]
  simp

/-- A request whose own transaction is stored is not refused when its offset is zero and the column
keeps its amount. -/
theorem Request.stored_not_refused (request : Request) (owned : db.Owned)
    (wallClock : storage.dateTime = Datetime.dropOffset)
    (addressed : request.accountId = request.command.accountId)
    (utc : request.command.eventTimestamp.offset = 0)
    (kept : storage.numeric request.command.amount = request.command.amount)
    (present : db.transactions.get request.command.eventId =
      some (request.transaction.stored storage)) : ¬ request.Refused db := by
  obtain ⟨account, found, currency⟩ := owned _ (Table.mem_of_get present)
  rintro (path | ⟨row, stored, different⟩ | ⟨other, stored, different⟩)
  · exact path addressed
  · obtain rfl := Option.some.inj (present.symm.trans stored)
    exact different (sameTransaction_own request wallClock addressed utc kept)
  · obtain rfl := Option.some.inj (found.symm.trans stored)
    exact different currency

/-- The running balance of some transactions adds their signed amounts in order. -/
def runningBalance (transactions : List Transaction) : Decimal :=
  transactions.foldl (fun balance transaction => balance + transaction.delta) 0

/-- Each balance counts each transaction of its account exactly once. -/
def Database.Counted (db : Database) : Prop :=
  ∀ account ∈ db.accounts.rows,
    account.balance = runningBalance (db.transactionsOf account.accountId)

theorem Database.counted_empty : Database.empty.Counted := by
  intro account member
  cases member

/-- A request that runs alone keeps each transaction counted. -/
theorem Database.Counted.apply (lossless : storage.Exact) (owned : db.Owned) (counted : db.Counted)
    (request : Request) : (request.apply storage db).1.Counted := by
  intro account member
  have present := Table.get_of_mem member
  rcases request.apply_cases storage db with
    ⟨_, work, silent, committed⟩ | ⟨_, _, _, created | ⟨earlier, stored, _, updated⟩⟩
  · obtain ⟨accounts, transactions, _⟩ := silent_tables silent committed
    rw [Database.transactionsOf, transactions]
    exact counted account (accounts ▸ member)
  · have rows := Database.transactionsOf_append (created_transactions created) account.accountId
    rw [created_accounts created] at present
    have same : (request.transaction.stored storage).accountId = request.accountId := rfl
    rw [rows, same]
    by_cases own : request.accountId = account.accountId
    · rw [if_pos own] at present ⊢
      obtain rfl := Option.some.inj present
      have empty : db.transactionsOf request.accountId = [] :=
        owned.transactionsOf_absent (created_absent created)
      simp [Account.stored, Request.newAccount, empty, runningBalance, lossless _,
        stored_delta lossless]
    · rw [if_neg own] at present ⊢
      rw [List.append_nil]
      exact counted account (Table.mem_of_get present)
  · have rows := Database.transactionsOf_append (updated_transactions updated) account.accountId
    rw [updated_accounts (Table.key_of_get stored) updated, stored] at present
    have same : (request.transaction.stored storage).accountId = request.accountId := rfl
    rw [rows, same]
    by_cases own : account.accountId = request.accountId
    · rw [if_pos own] at present
      obtain rfl := Option.some.inj present
      have before := counted earlier (Table.mem_of_get stored)
      rw [if_pos own.symm]
      simp only [runningBalance, List.foldl_append, List.foldl_cons, List.foldl_nil,
        stored_delta lossless]
      rw [lossless, before]
      rfl
    · rw [if_neg own] at present
      rw [if_neg (Ne.symm own), List.append_nil]
      exact counted account (Table.mem_of_get present)

/-- A running balance whose sums the decimal context represents is the exact signed sum. -/
theorem runningBalance_units {transactions : List Transaction}
    (fits : ∀ first, first <+: transactions → Decimal.Exact (signedSum first)) :
    (runningBalance transactions).units = signedSum transactions := by
  induction transactions using List.reverseRecOn with
  | nil => rfl
  | append_singleton first last ih =>
      have before := ih fun part shorter => fits part (shorter.trans (List.prefix_append _ _))
      have total := fits _ List.prefix_rfl
      rw [signedSum_append] at total ⊢
      have single : signedSum [last] = last.delta.units := by simp [signedSum]
      rw [single, ← before] at total ⊢
      rw [runningBalance, List.foldl_append]
      exact Decimal.add_units total

end EventLedger.AccountService
