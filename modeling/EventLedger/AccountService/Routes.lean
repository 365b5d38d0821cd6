import EventLedger.AccountService.RecentTransactions
import EventLedger.Library.Responder

namespace EventLedger.AccountService
open Library Python

structure BalanceResponse where
  accountId : String
  currency : String
  balance : Decimal
  deriving DecidableEq

structure TransactionView where
  eventId : String
  type : TransactionType
  amount : Decimal
  currency : String
  eventTimestamp : Datetime
  deriving DecidableEq

structure AccountResponse extends BalanceResponse where
  recentTransactions : List TransactionView
  deriving DecidableEq

/-- A request posts a transaction or reads an account. -/
inductive ApiRequest where
  | applyTransaction (request : Request)
  | getBalance (accountId : String)
  | getAccount (accountId : String)
  deriving DecidableEq

/-- Only a replay has its header. -/
inductive ApiResponse where
  | transaction (answer : Answer) (idempotentReplay : Bool)
  | balance (body : BalanceResponse)
  | account (body : AccountResponse)
  | httpException (status : Nat) (code message : String)
  deriving DecidableEq

def accountNotFound : ApiResponse := .httpException 404 "ACCOUNT_NOT_FOUND" "account not found"

/-- The route marks the results that created nothing. -/
def applyTransaction (answer : Answer) : ApiResponse :=
  match answer with
  | .result result => .transaction answer result.idempotentReplay
  | _ => .transaction answer false

def TransactionView.modelValidate (transaction : Transaction) : TransactionView where
  eventId := transaction.eventId
  type := transaction.type
  amount := transaction.amount
  currency := transaction.currency
  eventTimestamp := transaction.eventTimestamp

def Account.response (account : Account) : BalanceResponse :=
  ⟨account.accountId, account.currency, account.balance⟩

def Database.getBalance (db : Database) (accountId : String) : ApiResponse :=
  match db.accounts.get accountId with
  | none => accountNotFound
  | some account => .balance account.response

def Database.getAccount (recentTransactionsLimit : Nat) (db : Database) (accountId : String) :
    ApiResponse :=
  match db.accounts.get accountId with
  | none => accountNotFound
  | some account => .account {
      account.response with
      recentTransactions := (db.recentTransactions accountId recentTransactionsLimit).map
        TransactionView.modelValidate }

/-- The Account Service serves one request at a time. -/
def accountService (storage : Storage) (recentTransactionsLimit : Nat) :
    Responder Database ApiRequest ApiResponse where
  initial := .empty
  serve db
    | .applyTransaction request =>
        ((request.apply storage db).1, applyTransaction (request.apply storage db).2)
    | .getBalance accountId => (db, db.getBalance accountId)
    | .getAccount accountId => (db, db.getAccount recentTransactionsLimit accountId)

end EventLedger.AccountService
