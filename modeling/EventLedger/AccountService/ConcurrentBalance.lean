import EventLedger.AccountService.Concurrent

namespace EventLedger.AccountService
open Library Python

variable {storage : Storage} {db next : Database} {service : Service}

/-- A write is prepared when it fits an account of the database up to its balance. -/
def Work.Prepared (storage : Storage) (db : Database) (request : Request) (work : Work) : Prop :=
  work.Silent ∨ work = request.write storage request.newAccount true ∨
    ∃ account row, work = request.write storage account false ∧
      account.accountId = request.accountId ∧
      db.accounts.get request.accountId = some row ∧ row.currency = request.command.currency

/-- Each pending commit of a call is prepared. -/
def Call.Prepared (storage : Storage) (db : Database) : Call → Prop
  | .working request work => work.Prepared storage db request
  | .recovering _ work => work.Silent
  | _ => True

/-- A prepared call stays prepared in every later database. -/
theorem Call.Prepared.grows {call : Call} (prepared : call.Prepared storage db)
    (grows : db.Grows next) : call.Prepared storage next := by
  cases call with
  | working request work =>
      rcases prepared with silent | created | ⟨account, row, same, own, present, currency⟩
      · exact .inl silent
      · exact .inr (.inl created)
      · obtain ⟨later, found, kept⟩ := grows.accounts present
        exact .inr (.inr ⟨account, later, same, own, found, kept.trans currency⟩)
  | idle | received | rolledBack | recovering | answered => exact prepared

theorem Request.begin_prepared (storage : Storage) (request : Request) (db : Database) :
    (request.begin storage db).Prepared storage db request := by
  rcases request.begin_cases storage db with
    silent | ⟨_, _, ⟨_, same⟩ | ⟨account, present, currency, same⟩⟩
  · exact .inl silent
  · exact .inr (.inl same)
  · exact .inr (.inr ⟨account, account, same, Table.key_of_get present, present, currency⟩)

theorem Call.Step.prepared {i : Nat} {action : Action} {before after : Call}
    (step : Call.Step storage db i action before after next) : after.Prepared storage next := by
  cases step with
  | read request => exact request.begin_prepared storage db
  | reread request => exact request.recover_silent db
  | arrive | commit | rollback | finish | failWorking | failRecovering => trivial

/-- The commit of a later transaction is current when the stored balance is the one that it read
and the new balance fits the decimal context. -/
def Service.current (service : Service) : Action → Bool
  | .commit i =>
      match service.calls i with
      | .working request ⟨some (.update account _), _, _, _⟩ =>
          (service.db.transactions.get request.command.eventId).isSome ||
            decide ((service.db.accounts.get account.accountId).map Account.balance =
                some account.balance ∧
              Decimal.Exact (account.balance.units + request.delta.units))
      | _ => true
  | _ => true

/-- The invariant ties the ledger to the pending commits. -/
structure Service.Sound (storage : Storage) (service : Service) : Prop where
  owned : service.db.Owned
  balanced : service.db.Balanced
  prepared : ∀ i, (service.calls i).Prepared storage service.db

/-- Silent work keeps the ledger owned and balanced. -/
theorem silent_sound {work : Work} (silent : work.Silent)
    (committed : db.commit storage work = some next) (owned : db.Owned) (balanced : db.Balanced) :
    next.Owned ∧ next.Balanced := by
  obtain ⟨accounts, transactions, _⟩ := silent_tables silent committed
  constructor
  · intro transaction member
    rw [accounts]
    exact owned transaction (transactions ▸ member)
  · intro account member
    rw [Database.transactionsOf, transactions]
    exact balanced account (accounts ▸ member)

/-- A current commit keeps the ledger owned and balanced. -/
theorem commit_sound (lossless : storage.Exact) {request : Request} {work : Work} {i : Nat}
    (working : service.calls i = .working request work) (sound : service.Sound storage)
    (current : service.current (.commit i))
    (committed : service.db.commit storage work = some next) : next.Owned ∧ next.Balanced := by
  have prepared := sound.prepared i
  rw [working] at prepared
  rcases prepared with silent | rfl | ⟨account, row, rfl, own, present, currency⟩
  · exact silent_sound silent committed sound.owned sound.balanced
  · exact ⟨.created committed sound.owned,
      .created committed lossless sound.owned sound.balanced⟩
  · have fresh : service.db.transactions.get request.command.eventId = none := by
      obtain ⟨_, stored, _⟩ := Database.commit_updated committed
      exact Table.get_of_insert stored
    simp only [Service.current, working, Request.write, Bool.false_eq_true, if_false, fresh,
      Option.isSome_none, Bool.false_or, decide_eq_true_eq, own, present, Option.map_some,
      Option.some.injEq] at current
    exact ⟨.updated own committed sound.owned present currency,
      .updated own committed lossless sound.balanced present current.1 current.2⟩

/-- A current local step keeps the ledger owned and balanced. -/
theorem Call.Step.tables (lossless : storage.Exact) {i : Nat} {action : Action}
    {before after : Call} (sound : service.Sound storage) (current : service.current action)
    (state : service.calls i = before)
    (step : Call.Step storage service.db i action before after next) :
    next.Owned ∧ next.Balanced := by
  cases step with
  | commit _ _ committed => exact commit_sound lossless state sound current committed
  | finish _ _ committed =>
      have silent := sound.prepared i
      rw [state] at silent
      exact silent_sound silent committed sound.owned sound.balanced
  | arrive | read | rollback | reread | failWorking | failRecovering =>
      exact ⟨sound.owned, sound.balanced⟩

/-- A current step keeps the invariant. -/
theorem Service.Sound.step (lossless : storage.Exact) {after : Service} {action : Action}
    (sound : service.Sound storage) (current : service.current action)
    (taken : service.step storage action = some after) : after.Sound storage := by
  obtain ⟨i, call, step, calls⟩ := Service.step_cases taken
  have tables := step.tables lossless sound current rfl
  refine ⟨tables.1, tables.2, fun j => ?_⟩
  rw [calls]
  by_cases same : j = i
  · subst same
    rw [Function.update_self]
    exact step.prepared
  · rw [Function.update_of_ne same]
    exact (sound.prepared j).grows step.grows

theorem Service.sound_initial (storage : Storage) : (concurrent storage).initial.Sound storage :=
  ⟨Database.owned_empty, Database.balanced_empty, fun _ => trivial⟩

/-- Current commits keep each balance equal to the signed sum of its transactions. -/
theorem concurrent_balanced (lossless : storage.Exact)
    (reached : (concurrent storage).ReachedWithin (fun state action => state.current action) service) :
    service.db.Balanced := by
  have sound : service.Sound storage := reached.invariant _ (Service.sound_initial storage)
    fun state action after _ sound current taken => sound.step lossless current taken
  exact sound.balanced

/-- One call completes before the next call reads. -/
def serialCredits : List Action :=
  [.arrive 0 (.direct creditX "trace"), .read 0, .commit 0,
    .arrive 1 (.direct creditY "trace"), .read 1, .commit 1]

theorem concurrent_balanced_serial : ∃ state,
    ((concurrent .wallClock).restrict fun state action => state.current action).run
      (concurrent .wallClock).initial serialCredits = some state ∧ state.db.Balanced := by
  obtain ⟨state, ran⟩ := Option.isSome_iff_exists.mp
    (show (((concurrent .wallClock).restrict fun state action => state.current action).run
      (concurrent .wallClock).initial serialCredits).isSome by decide)
  exact ⟨state, ran, concurrent_balanced Storage.wallClock_exact
    (Machine.reachedWithin_of_run serialCredits .initial ran)⟩

/-- Two calls read the same balance and both write it back. -/
def lostUpdate : List Action :=
  [.arrive 0 (.direct creditX "trace"), .read 0, .commit 0,
    .arrive 1 (.direct creditY "trace"), .arrive 2 (.direct creditZ "trace"),
    .read 1, .read 2, .commit 1, .commit 2]

theorem lostUpdate_not_balanced : ∃ state,
    (concurrent .wallClock).run (concurrent .wallClock).initial lostUpdate = some state ∧
      ¬ state.db.Balanced := by
  obtain ⟨state, ran, stored⟩ := Option.map_eq_some_iff.mp
    (show ((concurrent .wallClock).run (concurrent .wallClock).initial lostUpdate).map
      (fun state => (state.db.accounts.rows, signedSum (state.db.transactionsOf "a"))) =
        some ([⟨"a", "USD", ⟨170⟩⟩], 220) by decide)
  obtain ⟨accounts, sum⟩ := Prod.mk.inj stored
  refine ⟨state, ran, fun balanced => ?_⟩
  have equal := balanced ⟨"a", "USD", ⟨170⟩⟩ (accounts ▸ List.mem_singleton_self _)
  rw [sum] at equal
  cases equal

end EventLedger.AccountService
