import EventLedger.Library.Table
import EventLedger.Python.Storage
import EventLedger.Schema

namespace EventLedger.AccountService
open Library Python

@[ext] structure Account where
  accountId : String
  currency : String
  balance : Decimal
  deriving DecidableEq

structure Transaction where
  eventId : String
  accountId : String
  type : TransactionType
  amount : Decimal
  currency : String
  eventTimestamp : Datetime
  deriving DecidableEq

inductive AuditAction where
  | accountCreated
  | balanceUpdated
  | transactionApplied
  | transactionReplayed
  | transactionConflictRejected
  | transactionRejected
  deriving DecidableEq

inductive AuditOutcome where
  | success
  | replay
  | failure
  deriving DecidableEq

/-- The details of a balance record are kept as decimals. -/
structure BalanceChange where
  previousBalance : Decimal
  delta : Decimal
  newBalance : Decimal
  deriving DecidableEq

inductive AuditDetails where
  | reason (text : String)
  | balance (change : BalanceChange)
  deriving DecidableEq

structure AuditRecord where
  action : AuditAction
  outcome : AuditOutcome
  traceId : String
  eventId : String
  accountId : String
  details : Option AuditDetails
  deriving DecidableEq

/-- The Account Service owns two keyed tables and an audit log in insertion order. -/
structure Database where
  accounts : Table Account.accountId
  transactions : Table Transaction.eventId
  audit : List AuditRecord

def Database.empty : Database := ⟨Table.empty _, Table.empty _, []⟩

/-- A credit adds its amount and a debit subtracts it. -/
def Transaction.delta (transaction : Transaction) : Decimal :=
  match transaction.type with
  | .credit => transaction.amount
  | .debit => -transaction.amount

/-- The transactions of one account are read in insertion order. -/
def Database.transactionsOf (db : Database) (accountId : String) : List Transaction :=
  db.transactions.rows.filter fun row => decide (row.accountId = accountId)

/-- The signed sum is exact, in ten-thousandths. -/
def signedSum (transactions : List Transaction) : Int :=
  (transactions.map fun row => row.delta.units).sum

/-- The ledger is balanced when each balance is the exact signed sum of its transactions. -/
def Database.Balanced (db : Database) : Prop :=
  ∀ account ∈ db.accounts.rows,
    account.balance.units = signedSum (db.transactionsOf account.accountId)

@[simp] theorem signedSum_append (first second : List Transaction) :
    signedSum (first ++ second) = signedSum first + signedSum second := by
  simp [signedSum]

end EventLedger.AccountService
