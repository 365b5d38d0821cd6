import EventLedger.AccountService.Database

namespace EventLedger.AccountService
open Library Python

/-- A request names the account in its path and carries the validated command and its trace id. -/
structure Request where
  accountId : String
  command : TransactionCreate
  traceId : String
  deriving DecidableEq

structure TransactionResult where
  eventId : String
  accountId : String
  applied : Bool
  idempotentReplay : Bool
  balance : Decimal
  currency : String
  deriving DecidableEq

/-- A call returns a result, raises an HTTP exception or lets another exception escape. -/
inductive Answer where
  | result (result : TransactionResult)
  | httpException (status : Nat) (code message : String)
  | unhandled
  | databaseError
  deriving DecidableEq

/-- The route and the exception handlers map each answer to an HTTP status. -/
def Answer.status : Answer → Nat
  | .result body => if body.idempotentReplay then 200 else 201
  | .httpException status _ _ => status
  | .unhandled => 500
  | .databaseError => 503

def accountIdMismatch : Answer :=
  .httpException 422 "ACCOUNT_ID_MISMATCH" "URL accountId must match payload accountId"

def eventIdConflict (message : String) : Answer := .httpException 409 "EVENT_ID_CONFLICT" message

def currencyMismatch : Answer :=
  .httpException 409 "CURRENCY_MISMATCH" "event currency does not match account currency"

/-- A session adds a new account or assigns a new balance to the account that it read. -/
inductive AccountWrite where
  | insert (account : Account)
  | update (account : Account) (balance : Decimal)
  deriving DecidableEq

/-- The pending work of a session is flushed by one commit and is followed by one answer. -/
structure Work where
  account : Option AccountWrite
  transaction : Option Transaction
  records : List AuditRecord
  answer : Answer
  deriving DecidableEq

/-- The comparison is undefined when the conversion of a timestamp overflows. -/
def sameTransaction (transaction : Transaction) (command : TransactionCreate) : Option Bool :=
  if transaction.accountId = command.accountId ∧ transaction.type = command.type ∧
      transaction.amount = command.amount ∧ transaction.currency = command.currency then do
    let stored ← transaction.eventTimestamp.utcNaive
    let received ← command.eventTimestamp.utcNaive
    return decide (stored = received)
  else some false

/-- The trace id comes from the request context. -/
def Request.record (request : Request) (action : AuditAction) (outcome : AuditOutcome)
    (details : Option AuditDetails) : AuditRecord :=
  ⟨action, outcome, request.traceId, request.command.eventId, request.accountId, details⟩

/-- A rejection or a replay commits one audit record and nothing else. -/
def Work.audited (record : AuditRecord) (answer : Answer) : Work := ⟨none, none, [record], answer⟩

/-- An escaping exception leaves nothing to commit. -/
def Work.raised : Work := ⟨none, none, [], .unhandled⟩

/-- A missing account makes the result fail on its balance. -/
def replayAnswer (transaction : Transaction) (account : Option Account) : Answer :=
  match account with
  | some account => .result {
      eventId := transaction.eventId
      accountId := transaction.accountId
      applied := true
      idempotentReplay := true
      balance := account.balance
      currency := account.currency }
  | none => .unhandled

def Request.replay (request : Request) (db : Database) (existing : Transaction) : Work :=
  .audited (request.record .transactionReplayed .replay none)
    (replayAnswer existing (db.accounts.get request.accountId))

def Request.conflict (request : Request) (message : String) : Work :=
  .audited (request.record .transactionConflictRejected .failure none) (eventIdConflict message)

/-- A credit adds the amount of the command and a debit subtracts it. -/
def Request.delta (request : Request) : Decimal :=
  match request.command.type with
  | .credit => request.command.amount
  | .debit => -request.command.amount

/-- The transaction row carries the fields of the command. -/
def Request.transaction (request : Request) : Transaction where
  eventId := request.command.eventId
  accountId := request.accountId
  type := request.command.type
  amount := request.command.amount
  currency := request.command.currency
  eventTimestamp := request.command.eventTimestamp

/-- The new balance is an absolute value computed from the account that the session read. -/
def Request.write (storage : Storage) (request : Request) (account : Account) (created : Bool) :
    Work :=
  let balance := account.balance + request.delta
  { account := some (if created then .insert { account with balance := balance }
      else .update account balance)
    transaction := some request.transaction
    records :=
      (if created then [request.record .accountCreated .success none] else []) ++
        [request.record .balanceUpdated .success
            (some (.balance ⟨account.balance, request.delta, balance⟩)),
          request.record .transactionApplied .success none]
    answer := .result {
      eventId := request.command.eventId
      accountId := request.accountId
      applied := true
      idempotentReplay := false
      balance := storage.numeric balance
      currency := account.currency } }

/-- The first part of `apply` reads the database and prepares the work of its first commit. -/
def Request.begin (storage : Storage) (request : Request) (db : Database) : Work :=
  if request.accountId ≠ request.command.accountId then
    .audited (request.record .transactionRejected .failure (some (.reason "account id mismatch")))
      accountIdMismatch
  else
    match db.transactions.get request.command.eventId with
    | some existing =>
        match sameTransaction existing request.command with
        | none => .raised
        | some false => request.conflict "eventId already exists with different transaction data"
        | some true => request.replay db existing
    | none =>
        match db.accounts.get request.accountId with
        | none => request.write storage ⟨request.accountId, request.command.currency, 0⟩ true
        | some account =>
            if account.currency ≠ request.command.currency then
              .audited (request.record .transactionRejected .failure
                (some (.reason "currency mismatch"))) currencyMismatch
            else request.write storage account false

/-- The handler of `IntegrityError` reads the database again after the rollback. -/
def Request.recover (request : Request) (db : Database) : Work :=
  match db.transactions.get request.command.eventId with
  | some existing =>
      match sameTransaction existing request.command with
      | none => .raised
      | some true => request.replay db existing
      | some false => request.conflict "eventId already exists"
  | none => request.conflict "eventId already exists"

/-- The columns convert the written values. -/
def Account.stored (storage : Storage) (account : Account) : Account :=
  { account with balance := storage.numeric account.balance }

def Transaction.stored (storage : Storage) (transaction : Transaction) : Transaction :=
  { transaction with
    amount := storage.numeric transaction.amount
    eventTimestamp := storage.dateTime transaction.eventTimestamp }

/-- The accounts statement of a commit violates the primary key or succeeds. -/
def AccountWrite.flush (storage : Storage) (accounts : Table Account.accountId) :
    Option AccountWrite → Option (Table Account.accountId)
  | none => some accounts
  | some (.insert account) => accounts.insert (account.stored storage)
  | some (.update account balance) => some (accounts.modify account.accountId fun row =>
      { row with balance := storage.numeric balance })

/-- The transactions statement of a commit violates the primary key or succeeds. -/
def Transaction.flush (storage : Storage) (transactions : Table Transaction.eventId) :
    Option Transaction → Option (Table Transaction.eventId)
  | none => some transactions
  | some transaction => transactions.insert (transaction.stored storage)

/-- One commit writes all the work, or raises `IntegrityError` and writes nothing. -/
def Database.commit (storage : Storage) (db : Database) (work : Work) : Option Database := do
  let accounts ← AccountWrite.flush storage db.accounts work.account
  let transactions ← Transaction.flush storage db.transactions work.transaction
  return ⟨accounts, transactions, db.audit ++ work.records⟩

/-- A call that runs alone performs all its steps without interruption. -/
def Request.apply (storage : Storage) (request : Request) (db : Database) : Database × Answer :=
  let work := request.begin storage db
  match db.commit storage work with
  | some next => (next, work.answer)
  | none =>
      let work := request.recover db
      ((db.commit storage work).getD db, work.answer)

/-- A client sends a command to the path of its own account. -/
def Request.direct (command : TransactionCreate) (traceId : String) : Request :=
  ⟨command.accountId, command, traceId⟩

end EventLedger.AccountService
