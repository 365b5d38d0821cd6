import EventLedger.AccountService.Ledger
import EventLedger.Library.Machine
import Mathlib.Logic.Function.Basic

namespace EventLedger.AccountService
open Library Python

/-- A concurrent call advances by one read or one commit at a time. -/
inductive Call where
  | idle
  | received (request : Request)
  | working (request : Request) (work : Work)
  | rolledBack (request : Request)
  | recovering (request : Request) (work : Work)
  | answered (request : Request) (answer : Answer)
  deriving DecidableEq

/-- Every route handler has its own session on the one database. -/
structure Service where
  db : Database
  calls : Nat → Call

inductive Action where
  | arrive (call : Nat) (request : Request)
  | read (call : Nat)
  | commit (call : Nat)
  | reread (call : Nat)
  | finish (call : Nat)
  | fail (call : Nat)

/-- A step replaces the state of one call. -/
def Service.move (service : Service) (i : Nat) (call : Call) (db : Database) : Service :=
  ⟨db, Function.update service.calls i call⟩

def Service.step (storage : Storage) (service : Service) : Action → Option Service
  | .arrive i request =>
      match service.calls i with
      | .idle => some (service.move i (.received request) service.db)
      | _ => none
  | .read i =>
      match service.calls i with
      | .received request =>
          some (service.move i (.working request (request.begin storage service.db)) service.db)
      | _ => none
  | .commit i =>
      match service.calls i with
      | .working request work =>
          match service.db.commit storage work with
          | some db => some (service.move i (.answered request work.answer) db)
          | none => some (service.move i (.rolledBack request) service.db)
      | _ => none
  | .reread i =>
      match service.calls i with
      | .rolledBack request =>
          some (service.move i (.recovering request (request.recover service.db)) service.db)
      | _ => none
  | .finish i =>
      match service.calls i with
      | .recovering request work =>
          (service.db.commit storage work).map (service.move i (.answered request work.answer))
      | _ => none
  | .fail i =>
      match service.calls i with
      | .working request _ | .recovering request _ =>
          some (service.move i (.answered request .databaseError) service.db)
      | _ => none

/-- The concurrent Account Service starts with an empty database and no calls. -/
def concurrent (storage : Storage) : Machine Service Action where
  initial := ⟨Database.empty, fun _ => .idle⟩
  step := Service.step storage

/-- A call whose steps nothing interrupts ends like `apply`. -/
theorem Service.run_alone (storage : Storage) (service : Service) (i : Nat) (request : Request)
    (idle : service.calls i = .idle) :
    (concurrent storage).run service [.arrive i request, .read i, .commit i] =
      some (service.move i (.answered request (request.apply storage service.db).2)
        (request.apply storage service.db).1) := by
  obtain ⟨committed, answer⟩ := request.apply_eq storage service.db
  simp [Machine.run, concurrent, step, move, idle, committed, answer]

/-- This relation lists every local step of one call. -/
inductive Call.Step (storage : Storage) (db : Database) (i : Nat) :
    Action → Call → Call → Database → Prop where
  | arrive (request : Request) : Step storage db i (.arrive i request) .idle (.received request) db
  | read (request : Request) :
      Step storage db i (.read i) (.received request)
        (.working request (request.begin storage db)) db
  | commit {next : Database} (request : Request) (work : Work)
      (committed : db.commit storage work = some next) :
      Step storage db i (.commit i) (.working request work) (.answered request work.answer) next
  | rollback (request : Request) (work : Work) (violated : db.commit storage work = none) :
      Step storage db i (.commit i) (.working request work) (.rolledBack request) db
  | reread (request : Request) :
      Step storage db i (.reread i) (.rolledBack request)
        (.recovering request (request.recover db)) db
  | finish {next : Database} (request : Request) (work : Work)
      (committed : db.commit storage work = some next) :
      Step storage db i (.finish i) (.recovering request work) (.answered request work.answer) next
  | failWorking (request : Request) (work : Work) :
      Step storage db i (.fail i) (.working request work) (.answered request .databaseError) db
  | failRecovering (request : Request) (work : Work) :
      Step storage db i (.fail i) (.recovering request work) (.answered request .databaseError) db

/-- A step of the service is a local step of one call. -/
theorem Service.step_cases {storage : Storage} {service next : Service} {action : Action}
    (taken : service.step storage action = some next) :
    ∃ i call, Call.Step storage service.db i action (service.calls i) call next.db ∧
      next.calls = Function.update service.calls i call := by
  cases action with
  | arrive i request =>
      simp only [step] at taken
      split at taken
      · next idle =>
          obtain rfl := Option.some.inj taken
          exact ⟨i, _, idle ▸ .arrive request, rfl⟩
      · cases taken
  | read i =>
      simp only [step] at taken
      split at taken
      · next request received =>
          obtain rfl := Option.some.inj taken
          exact ⟨i, _, received ▸ .read request, rfl⟩
      · cases taken
  | commit i =>
      simp only [step] at taken
      split at taken
      · next request work working =>
          split at taken
          · next db committed =>
              obtain rfl := Option.some.inj taken
              exact ⟨i, _, working ▸ .commit request work committed, rfl⟩
          · next violated =>
              obtain rfl := Option.some.inj taken
              exact ⟨i, _, working ▸ .rollback request work violated, rfl⟩
      · cases taken
  | reread i =>
      simp only [step] at taken
      split at taken
      · next request rolledBack =>
          obtain rfl := Option.some.inj taken
          exact ⟨i, _, rolledBack ▸ .reread request, rfl⟩
      · cases taken
  | finish i =>
      simp only [step] at taken
      split at taken
      · next request work recovering =>
          obtain ⟨db, committed, rfl⟩ := Option.map_eq_some_iff.mp taken
          exact ⟨i, _, recovering ▸ .finish request work committed, rfl⟩
      · cases taken
  | fail i =>
      simp only [step] at taken
      split at taken
      · next request work working =>
          obtain rfl := Option.some.inj taken
          exact ⟨i, _, working ▸ .failWorking request work, rfl⟩
      · next request work recovering =>
          obtain rfl := Option.some.inj taken
          exact ⟨i, _, recovering ▸ .failRecovering request work, rfl⟩
      · cases taken

/-- A commit violates a primary key of an account or of a transaction that it inserts. -/
theorem Database.commit_eq_none {storage : Storage} {db : Database} {work : Work}
    (violated : db.commit storage work = none) :
    (∃ account, work.account = some (.insert account) ∧
        db.accounts.get account.accountId ≠ none) ∨
      ∃ transaction, work.transaction = some transaction ∧
        db.transactions.get transaction.eventId ≠ none := by
  cases flushed : AccountWrite.flush storage db.accounts work.account with
  | none =>
      refine .inl ?_
      cases present : work.account with
      | none =>
          rw [present] at flushed
          cases flushed
      | some write =>
          rw [present] at flushed
          cases write with
          | insert account =>
              exact ⟨account, rfl, (Table.insert_eq_none _ (account.stored storage)).mp flushed⟩
          | update account balance => cases flushed
  | some accounts =>
      refine .inr ?_
      cases stored : Transaction.flush storage db.transactions work.transaction with
      | some transactions => simp [commit, flushed, stored] at violated
      | none =>
          cases present : work.transaction with
          | none =>
              rw [present] at stored
              cases stored
          | some transaction =>
              rw [present] at stored
              exact ⟨transaction, rfl,
                (Table.insert_eq_none _ (transaction.stored storage)).mp stored⟩

theorem Call.Step.grows {storage : Storage} {db next : Database} {i : Nat} {action : Action}
    {before after : Call} (step : Call.Step storage db i action before after next) :
    db.Grows next := by
  cases step with
  | commit _ _ committed | finish _ _ committed => exact Database.commit_grows committed
  | arrive | read | rollback | reread | failWorking | failRecovering => exact .refl db

end EventLedger.AccountService
