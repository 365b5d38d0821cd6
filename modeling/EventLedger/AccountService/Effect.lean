import EventLedger.AccountService.Service

namespace EventLedger.AccountService
open Library Python

variable {storage : Storage} {db next : Database} {request : Request}

/-- These actions record a replay or a rejection. -/
def AuditAction.refusal : AuditAction → Bool
  | .transactionReplayed | .transactionConflictRejected | .transactionRejected => true
  | .accountCreated | .balanceUpdated | .transactionApplied => false

/-- Silent work writes no account and no transaction and is not answered 201. -/
structure Work.Silent (work : Work) : Prop where
  account : work.account = none
  transaction : work.transaction = none
  status : work.answer.status ≠ 201
  records : ∀ record ∈ work.records, record.action.refusal

theorem Work.audited_silent {record : AuditRecord} {answer : Answer}
    (refusal : record.action.refusal) (status : answer.status ≠ 201) :
    (Work.audited record answer).Silent :=
  ⟨rfl, rfl, status, fun _ member => List.mem_singleton.mp member ▸ refusal⟩

theorem Work.raised_silent : Work.raised.Silent :=
  ⟨rfl, rfl, by decide, fun _ member => by cases member⟩

theorem Request.conflict_silent (request : Request) (message : String) :
    (request.conflict message).Silent :=
  Work.audited_silent rfl (by simp [eventIdConflict, Answer.status])

theorem Request.replay_silent (request : Request) (db : Database) (existing : Transaction) :
    (request.replay db existing).Silent := by
  refine Work.audited_silent rfl ?_
  unfold replayAnswer
  split <;> simp [Answer.status]

/-- A silent commit only appends its audit records. -/
theorem Database.commit_silent {work : Work} (silent : work.Silent) :
    db.commit storage work = some { db with audit := db.audit ++ work.records } := by
  simp [commit, silent.account, silent.transaction, AccountWrite.flush, Transaction.flush]

/-- The commit of a first transaction inserts the account and the transaction. -/
theorem Database.commit_created {account : Account}
    (committed : db.commit storage (request.write storage account true) = some next) :
    ∃ accounts transactions,
      db.accounts.insert
        (({ account with balance := account.balance + request.delta } : Account).stored storage) =
          some accounts ∧
      db.transactions.insert (request.transaction.stored storage) = some transactions ∧
      next = ⟨accounts, transactions, db.audit ++ (request.write storage account true).records⟩ := by
  obtain ⟨accounts, inserted, rest⟩ := Option.bind_eq_some_iff.mp committed
  obtain ⟨transactions, stored, same⟩ := Option.bind_eq_some_iff.mp rest
  exact ⟨accounts, transactions, inserted, stored, (Option.some.inj same).symm⟩

/-- The commit of a later transaction overwrites the balance and inserts the transaction. -/
theorem Database.commit_updated {account : Account}
    (committed : db.commit storage (request.write storage account false) = some next) :
    ∃ transactions,
      db.transactions.insert (request.transaction.stored storage) = some transactions ∧
      next = ⟨db.accounts.modify account.accountId fun row =>
          { row with balance := storage.numeric (account.balance + request.delta) },
        transactions, db.audit ++ (request.write storage account false).records⟩ := by
  obtain ⟨transactions, stored, same⟩ := Option.bind_eq_some_iff.mp committed
  exact ⟨transactions, stored, (Option.some.inj same).symm⟩

/-- The account that a first transaction creates has a zero balance before it. -/
def Request.newAccount (request : Request) : Account :=
  ⟨request.accountId, request.command.currency, 0⟩

/-- A stored transaction decides the work by the comparison with the command. -/
inductive Request.Compares (request : Request) (db : Database) (message : String) : Work → Prop where
  | undefined (existing : Transaction)
      (present : db.transactions.get request.command.eventId = some existing)
      (compared : sameTransaction existing request.command = none) :
      request.Compares db message .raised
  | conflict (existing : Transaction)
      (present : db.transactions.get request.command.eventId = some existing)
      (compared : sameTransaction existing request.command = some false) :
      request.Compares db message (request.conflict message)
  | replay (existing : Transaction)
      (present : db.transactions.get request.command.eventId = some existing)
      (compared : sameTransaction existing request.command = some true) :
      request.Compares db message (request.replay db existing)

/-- The rows that the first part of `apply` reads decide the work that it prepares. -/
inductive Request.Begins (storage : Storage) (request : Request) (db : Database) : Work → Prop where
  | path (different : request.accountId ≠ request.command.accountId) :
      request.Begins storage db (.audited (request.record .transactionRejected .failure
        (some (.reason "account id mismatch"))) accountIdMismatch)
  | compare (work : Work) (addressed : request.accountId = request.command.accountId)
      (compares : request.Compares db "eventId already exists with different transaction data"
        work) : request.Begins storage db work
  | create (addressed : request.accountId = request.command.accountId)
      (fresh : db.transactions.get request.command.eventId = none)
      (absent : db.accounts.get request.accountId = none) :
      request.Begins storage db (request.write storage request.newAccount true)
  | currency (account : Account) (addressed : request.accountId = request.command.accountId)
      (fresh : db.transactions.get request.command.eventId = none)
      (present : db.accounts.get request.accountId = some account)
      (different : account.currency ≠ request.command.currency) :
      request.Begins storage db (.audited (request.record .transactionRejected .failure
        (some (.reason "currency mismatch"))) currencyMismatch)
  | update (account : Account) (addressed : request.accountId = request.command.accountId)
      (fresh : db.transactions.get request.command.eventId = none)
      (present : db.accounts.get request.accountId = some account)
      (same : account.currency = request.command.currency) :
      request.Begins storage db (request.write storage account false)

theorem Request.begins (storage : Storage) (request : Request) (db : Database) :
    request.Begins storage db (request.begin storage db) := by
  unfold begin
  split
  · next different => exact .path different
  · next addressed =>
      have addressed := not_not.mp addressed
      split
      · next existing present =>
          refine .compare _ addressed ?_
          split
          · next compared => exact .undefined existing present compared
          · next compared => exact .conflict existing present compared
          · next compared => exact .replay existing present compared
      · next fresh =>
          split
          · next absent => exact .create addressed fresh absent
          · next account present =>
              split
              · next different => exact .currency account addressed fresh present different
              · next same => exact .update account addressed fresh present (not_not.mp same)

/-- The handler of `IntegrityError` compares with a stored transaction or finds none. -/
theorem Request.recover_cases (request : Request) (db : Database) :
    request.Compares db "eventId already exists" (request.recover db) ∨
      db.transactions.get request.command.eventId = none ∧
        request.recover db = request.conflict "eventId already exists" := by
  unfold recover
  split
  · next existing present =>
      refine .inl ?_
      split
      · next compared => exact .undefined existing present compared
      · next compared => exact .replay existing present compared
      · next compared => exact .conflict existing present compared
  · next absent => exact .inr ⟨absent, rfl⟩

theorem Request.Compares.silent {message : String} {work : Work}
    (compares : request.Compares db message work) : work.Silent := by
  cases compares with
  | undefined => exact Work.raised_silent
  | conflict => exact request.conflict_silent message
  | replay existing => exact request.replay_silent db existing

/-- The first part of `apply` prepares silent work or one write that fits what it read. -/
theorem Request.begin_cases (storage : Storage) (request : Request) (db : Database) :
    (request.begin storage db).Silent ∨
    (request.accountId = request.command.accountId ∧
      db.transactions.get request.command.eventId = none ∧
      ((db.accounts.get request.accountId = none ∧
          request.begin storage db = request.write storage request.newAccount true) ∨
        ∃ account, db.accounts.get request.accountId = some account ∧
          account.currency = request.command.currency ∧
          request.begin storage db = request.write storage account false)) := by
  generalize begun : request.begin storage db = work
  cases begun ▸ request.begins storage db with
  | path | currency => exact .inl (Work.audited_silent rfl (by decide))
  | compare _ _ compares => exact .inl compares.silent
  | create addressed fresh absent => exact .inr ⟨addressed, fresh, .inl ⟨absent, rfl⟩⟩
  | update account addressed fresh present same =>
      exact .inr ⟨addressed, fresh, .inr ⟨account, present, same, rfl⟩⟩

/-- The handler of `IntegrityError` prepares silent work. -/
theorem Request.recover_silent (request : Request) (db : Database) :
    (request.recover db).Silent := by
  rcases request.recover_cases db with compares | ⟨_, conflict⟩
  · exact compares.silent
  · rw [conflict]
    exact request.conflict_silent _

/-- The work that one read prepares commits without error when nothing intervenes. -/
theorem Request.begin_commits (storage : Storage) (request : Request) (db : Database) :
    ∃ next, db.commit storage (request.begin storage db) = some next := by
  rcases request.begin_cases storage db with silent | ⟨_, fresh, write⟩
  · exact ⟨_, Database.commit_silent silent⟩
  · obtain ⟨transactions, stored⟩ :=
      db.transactions.insert_of_get (request.transaction.stored storage) fresh
    rcases write with ⟨absent, same⟩ | ⟨account, _, _, same⟩
    · obtain ⟨accounts, inserted⟩ := db.accounts.insert_of_get
        (({ request.newAccount with
          balance := request.newAccount.balance + request.delta } : Account).stored storage) absent
      refine ⟨⟨accounts, transactions, db.audit ++ (request.begin storage db).records⟩, ?_⟩
      rw [same]
      simp [Database.commit, write, AccountWrite.flush, Transaction.flush, inserted, stored]
    · refine ⟨⟨db.accounts.modify account.accountId fun row =>
          { row with balance := storage.numeric (account.balance + request.delta) },
        transactions, db.audit ++ (request.begin storage db).records⟩, ?_⟩
      rw [same]
      simp [Database.commit, write, AccountWrite.flush, Transaction.flush, stored]

/-- A call that runs alone answers after its first commit. -/
theorem Request.apply_eq (storage : Storage) (request : Request) (db : Database) :
    db.commit storage (request.begin storage db) = some (request.apply storage db).1 ∧
      (request.apply storage db).2 = (request.begin storage db).answer := by
  obtain ⟨next, committed⟩ := request.begin_commits storage db
  simp only [apply, committed, and_self]

/-- A request reads the row of its event id and the row of its account. -/
theorem Request.begin_congr
    (transactions : db.transactions.get request.command.eventId =
      next.transactions.get request.command.eventId)
    (accounts : db.accounts.get request.accountId = next.accounts.get request.accountId) :
    request.begin storage db = request.begin storage next := by
  simp only [begin, replay, transactions, accounts]

/-- Two works are alike when they differ at most in their audit records. -/
structure Work.Alike (first second : Work) : Prop where
  account : first.account = second.account
  transaction : first.transaction = second.transaction
  answer : first.answer = second.answer

/-- The trace id of a request only enters its audit records. -/
theorem Request.begin_alike (storage : Storage) (accountId : String) (command : TransactionCreate)
    (first second : String) (db : Database) :
    ((Request.mk accountId command first).begin storage db).Alike
      ((Request.mk accountId command second).begin storage db) := by
  simp only [begin]
  by_cases addressed : accountId = command.accountId
  · rw [if_neg (not_not.mpr addressed), if_neg (not_not.mpr addressed)]
    split
    · split <;> exact ⟨rfl, rfl, rfl⟩
    · split
      · exact ⟨rfl, rfl, rfl⟩
      · split <;> exact ⟨rfl, rfl, rfl⟩
  · rw [if_pos addressed, if_pos addressed]
    exact ⟨rfl, rfl, rfl⟩

/-- Alike works write the same rows. -/
theorem Database.commit_alike {first second : Work} (alike : first.Alike second)
    {later other : Database} (committed : db.commit storage first = some later)
    (recommitted : db.commit storage second = some other) :
    later.accounts = other.accounts ∧ later.transactions = other.transactions := by
  obtain ⟨accounts, flushed, rest⟩ := Option.bind_eq_some_iff.mp committed
  obtain ⟨transactions, stored, same⟩ := Option.bind_eq_some_iff.mp rest
  obtain rfl := Option.some.inj same
  rw [alike.account] at flushed
  rw [alike.transaction] at stored
  simp only [commit, flushed, stored, Option.bind_eq_bind, Option.bind_some] at recommitted
  obtain rfl := Option.some.inj recommitted
  exact ⟨rfl, rfl⟩

/-- A call writes the same rows and answers alike under every trace id. -/
theorem Request.apply_alike (storage : Storage) (accountId : String) (command : TransactionCreate)
    (first second : String) (db : Database) :
    let applied := (Request.mk accountId command first).apply storage db
    let reapplied := (Request.mk accountId command second).apply storage db
    applied.1.accounts = reapplied.1.accounts ∧
      applied.1.transactions = reapplied.1.transactions ∧ applied.2 = reapplied.2 := by
  intro applied reapplied
  have alike := begin_alike storage accountId command first second db
  obtain ⟨committed, answer⟩ := (Request.mk accountId command first).apply_eq storage db
  obtain ⟨recommitted, again⟩ := (Request.mk accountId command second).apply_eq storage db
  obtain ⟨accounts, transactions⟩ := Database.commit_alike alike committed recommitted
  exact ⟨accounts, transactions, answer.trans (alike.answer.trans again.symm)⟩

end EventLedger.AccountService
