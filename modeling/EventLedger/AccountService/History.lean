import EventLedger.AccountService.Ledger
import Mathlib.Data.List.Induction

namespace EventLedger.AccountService
open Library Python

variable {storage : Storage} {db next : Database} {request : Request}

/-- A history keeps the database and the answer of each request served so far. -/
structure History where
  db : Database
  log : List (Request × Answer)

/-- One request is served to its end before the next one starts. -/
def History.serve (storage : Storage) (history : History) (request : Request) : History :=
  let served := request.apply storage history.db
  ⟨served.1, history.log ++ [(request, served.2)]⟩

/-- This history serves the requests in order from an empty database. -/
def History.after (storage : Storage) (requests : List Request) : History :=
  requests.foldl (History.serve storage) ⟨Database.empty, []⟩

/-- The accepted requests are the ones answered 201. -/
def History.accepted (history : History) : List Request :=
  (history.log.filter fun entry => decide (entry.2.status = 201)).map Prod.fst

@[simp] theorem History.after_concat (storage : Storage) (requests : List Request)
    (request : Request) :
    History.after storage (requests ++ [request]) =
      (History.after storage requests).serve storage request := by
  simp [History.after, List.foldl_append]

/-- A property of the empty history that each request preserves holds after every history. -/
theorem History.invariant (holds : History → Prop) (initially : holds ⟨Database.empty, []⟩)
    (preserved : ∀ history request, holds history → holds (history.serve storage request))
    (requests : List Request) : holds (History.after storage requests) := by
  induction requests using List.reverseRecOn with
  | nil => exact initially
  | append_singleton requests request ih =>
      rw [History.after_concat]
      exact preserved _ request ih

/-- A request that runs alone is refused without a write, creates an account or updates one. -/
theorem Request.apply_cases (storage : Storage) (request : Request) (db : Database) :
    ((request.apply storage db).2.status ≠ 201 ∧ ∃ work, work.Silent ∧
        db.commit storage work = some (request.apply storage db).1) ∨
    ((request.apply storage db).2.status = 201 ∧
      request.accountId = request.command.accountId ∧
      db.transactions.get request.command.eventId = none ∧
      (db.commit storage (request.write storage request.newAccount true) =
          some (request.apply storage db).1 ∨
        ∃ account, db.accounts.get request.accountId = some account ∧
          account.currency = request.command.currency ∧
          db.commit storage (request.write storage account false) =
            some (request.apply storage db).1)) := by
  obtain ⟨committed, answered⟩ := request.apply_eq storage db
  rcases request.begin_cases storage db with
    silent | ⟨addressed, fresh, ⟨_, same⟩ | ⟨account, present, currency, same⟩⟩
  · exact .inl ⟨answered ▸ silent.status, _, silent, committed⟩
  · rw [same] at committed answered
    exact .inr ⟨by rw [answered]; rfl, addressed, fresh, .inl committed⟩
  · rw [same] at committed answered
    exact .inr ⟨by rw [answered]; rfl, addressed, fresh, .inr ⟨account, present, currency, committed⟩⟩

/-- An accepted request is addressed to its own account and appends its transaction. -/
theorem Request.apply_accepted (accepted : (request.apply storage db).2.status = 201) :
    request.accountId = request.command.accountId ∧
      (request.apply storage db).1.transactions.rows =
        db.transactions.rows ++ [request.transaction.stored storage] := by
  rcases request.apply_cases storage db with
    ⟨refused, _⟩ | ⟨_, addressed, _, created | ⟨account, _, _, updated⟩⟩
  · exact absurd accepted refused
  · exact ⟨addressed, created_transactions created⟩
  · exact ⟨addressed, updated_transactions updated⟩

/-- A refused request changes neither ledger table. -/
theorem Request.apply_refused (refused : (request.apply storage db).2.status ≠ 201) :
    (request.apply storage db).1.accounts = db.accounts ∧
      (request.apply storage db).1.transactions = db.transactions := by
  rcases request.apply_cases storage db with
    ⟨_, work, silent, committed⟩ | ⟨accepted, _⟩
  · obtain ⟨accounts, transactions, _⟩ := silent_tables silent committed
    exact ⟨accounts, transactions⟩
  · exact absurd accepted refused

/-- A request that runs alone keeps each transaction owned. -/
theorem Database.Owned.apply (owned : db.Owned) (request : Request) :
    (request.apply storage db).1.Owned := by
  rcases request.apply_cases storage db with
    ⟨_, work, silent, committed⟩ | ⟨_, _, _, created | ⟨account, present, currency, updated⟩⟩
  · obtain ⟨accounts, transactions, _⟩ := silent_tables silent committed
    intro transaction member
    rw [accounts]
    exact owned transaction (transactions ▸ member)
  · exact owned.created created
  · exact owned.updated (Table.key_of_get present) updated present currency

theorem History.owned (storage : Storage) (requests : List Request) :
    (History.after storage requests).db.Owned :=
  History.invariant (fun history => history.db.Owned) Database.owned_empty
    (fun _ request owned => owned.apply request) requests

/-- A request extends the accepted list exactly when it is answered 201. -/
theorem History.accepted_serve (history : History) (request : Request) :
    (history.serve storage request).accepted = history.accepted ++
      if (request.apply storage history.db).2.status = 201 then [request] else [] := by
  by_cases accepted : (request.apply storage history.db).2.status = 201 <;>
    simp [serve, History.accepted, List.filter_append, accepted]

/-- The transactions table holds exactly the accepted requests, in order. -/
theorem History.rows_eq_accepted (storage : Storage) (requests : List Request) :
    (History.after storage requests).db.transactions.rows =
      (History.after storage requests).accepted.map fun request =>
        request.transaction.stored storage := by
  refine History.invariant (fun history => history.db.transactions.rows =
    history.accepted.map fun request => request.transaction.stored storage) rfl
    (fun history request rows => ?_) requests
  rw [History.accepted_serve, List.map_append, ← rows]
  by_cases accepted : (request.apply storage history.db).2.status = 201
  · rw [if_pos accepted]
    exact (Request.apply_accepted accepted).2
  · rw [if_neg accepted, List.map_nil, List.append_nil]
    exact congrArg Table.rows (Request.apply_refused accepted).2

/-- Every accepted request is addressed to its own account. -/
theorem History.accepted_addressed (storage : Storage) (requests : List Request) :
    ∀ request ∈ (History.after storage requests).accepted,
      request.accountId = request.command.accountId := by
  refine History.invariant (fun history => ∀ request ∈ history.accepted,
    request.accountId = request.command.accountId) (fun _ member => by cases member)
    (fun history request addressed other member => ?_) requests
  rw [History.accepted_serve, List.mem_append] at member
  rcases member with old | new
  · exact addressed other old
  · split at new
    · next accepted =>
        obtain rfl := List.mem_singleton.mp new
        exact (Request.apply_accepted accepted).1
    · cases new

end EventLedger.AccountService
