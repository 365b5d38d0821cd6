import EventLedger.AccountService.Concurrent

namespace EventLedger.AccountService
open Library Python

variable {storage : Storage} {db next : Database} {service : Service}

/-- A conflict is answered 409 with the code `EVENT_ID_CONFLICT`. -/
def Answer.IsConflict (answer : Answer) : Prop := ∃ message, answer = eventIdConflict message

/-- The stored transaction of the event id has other data than the command. -/
def Database.Differs (db : Database) (command : TransactionCreate) : Prop :=
  ∃ row, db.transactions.get command.eventId = some row ∧ sameTransaction row command = some false

/-- A conflict that a call has decided or answered is justified by a stored transaction. -/
def Call.Justified (db : Database) : Call → Prop
  | .working request work | .recovering request work =>
      work.answer.IsConflict → db.Differs request.command
  | .answered request answer => answer.IsConflict → db.Differs request.command
  | .rolledBack request => db.transactions.get request.command.eventId ≠ none
  | .idle | .received _ => True

theorem Database.Differs.grows {command : TransactionCreate} (differs : db.Differs command)
    (grows : db.Grows next) : next.Differs command := by
  obtain ⟨row, present, different⟩ := differs
  exact ⟨row, grows.transactions present, different⟩

theorem Call.Justified.grows {call : Call} (justified : call.Justified db)
    (grows : db.Grows next) : call.Justified next := by
  cases call with
  | idle | received => trivial
  | working | recovering | answered => exact fun conflict => (justified conflict).grows grows
  | rolledBack request =>
      obtain ⟨row, present⟩ := Option.ne_none_iff_exists'.mp justified
      exact Option.ne_none_iff_exists'.mpr ⟨row, grows.transactions present⟩

theorem replayAnswer_not_conflict (transaction : Transaction) (account : Option Account) :
    ¬ (replayAnswer transaction account).IsConflict := by
  rintro ⟨message, same⟩
  cases account <;> cases same

theorem Request.Compares.justified {request : Request} {message : String} {work : Work}
    (compares : request.Compares db message work) (conflict : work.answer.IsConflict) :
    db.Differs request.command := by
  cases compares with
  | undefined =>
      obtain ⟨_, same⟩ := conflict
      cases same
  | conflict existing present different => exact ⟨existing, present, different⟩
  | replay => exact absurd conflict (replayAnswer_not_conflict _ _)

/-- The first read decides a conflict only on a stored transaction with other data. -/
theorem Request.Begins.justified {request : Request} {work : Work}
    (begins : request.Begins storage db work) (conflict : work.answer.IsConflict) :
    db.Differs request.command := by
  cases begins with
  | compare _ _ compares => exact compares.justified conflict
  | path | create | update =>
      obtain ⟨_, same⟩ := conflict
      cases same
  | currency =>
      obtain ⟨_, same⟩ := conflict
      simp [Work.audited, currencyMismatch, eventIdConflict] at same

/-- The second read decides a justified conflict when the transaction is stored. -/
theorem Request.recover_justified (request : Request) (db : Database)
    (stored : db.transactions.get request.command.eventId ≠ none)
    (conflict : (request.recover db).answer.IsConflict) : db.Differs request.command := by
  rcases request.recover_cases db with compares | ⟨absent, _⟩
  · exact compares.justified conflict
  · exact absurd absent stored

/-- Two calls race for an account when one finds it present at the commit that creates it and the
transaction of its event id is still absent. -/
def Service.raceFree (service : Service) : Action → Bool
  | .commit i =>
      match service.calls i with
      | .working request ⟨some (.insert account), _, _, _⟩ =>
          (service.db.accounts.get account.accountId).isNone ||
            (service.db.transactions.get request.command.eventId).isSome
      | _ => true
  | _ => true

/-- A call inserts only the transaction of its own event id. -/
def Call.Own : Call → Prop
  | .working request work =>
      ∀ transaction ∈ work.transaction, transaction.eventId = request.command.eventId
  | _ => True

theorem Request.begin_own (storage : Storage) (request : Request) (db : Database) :
    (Call.working request (request.begin storage db)).Own := by
  intro transaction member
  rcases request.begin_cases storage db with
    silent | ⟨_, _, ⟨_, same⟩ | ⟨account, _, _, same⟩⟩
  · rw [silent.transaction] at member
    cases member
  · rw [same] at member
    rw [← Option.some.inj member]
    rfl
  · rw [same] at member
    rw [← Option.some.inj member]
    rfl

theorem Call.Step.own {i : Nat} {action : Action} {before after : Call}
    (step : Call.Step storage db i action before after next) : after.Own := by
  cases step with
  | read request => exact request.begin_own storage db
  | arrive | reread | commit | rollback | finish | failWorking | failRecovering => trivial

/-- A commit that fails without a race leaves the transaction of the event id stored. -/
theorem rollback_stored {i : Nat} {request : Request} {work : Work}
    (working : service.calls i = .working request work)
    (own : (Call.working request work).Own) (raceFree : service.raceFree (.commit i))
    (violated : service.db.commit storage work = none) :
    service.db.transactions.get request.command.eventId ≠ none := by
  rcases Database.commit_eq_none violated with ⟨account, write, present⟩ | ⟨transaction, write, present⟩
  · rcases work with ⟨_, transaction, records, answer⟩
    obtain rfl := write
    simp only [Service.raceFree, working, Bool.or_eq_true, Option.isNone_iff_eq_none] at raceFree
    rcases raceFree with absent | stored
    · exact absurd absent present
    · exact Option.isSome_iff_ne_none.mp stored
  · rw [← own transaction write]
    exact present

/-- A local step without a race keeps conflicts justified. -/
theorem Call.Step.justified {i : Nat} {action : Action} {before after : Call}
    (own : before.Own) (justified : before.Justified service.db)
    (raceFree : service.raceFree action) (state : service.calls i = before)
    (step : Call.Step storage service.db i action before after next) : after.Justified next := by
  cases step with
  | arrive => trivial
  | read request => exact (request.begins storage service.db).justified
  | commit request work committed | finish request work committed =>
      exact fun conflict => (justified conflict).grows (Database.commit_grows committed)
  | rollback request work violated => exact rollback_stored state own raceFree violated
  | reread request => exact request.recover_justified service.db justified
  | failWorking | failRecovering =>
      rintro ⟨message, same⟩
      cases same

/-- Without a race for an account, a conflict is answered only on a stored transaction whose data
differ from the command. -/
theorem concurrent_conflict_justified
    (reached : (concurrent storage).ReachedWithin (fun state action => state.raceFree action) service)
    {i : Nat} {request : Request} {message : String}
    (answered : service.calls i = .answered request (eventIdConflict message)) :
    service.db.Differs request.command := by
  have justified : ∀ i, (service.calls i).Own ∧ (service.calls i).Justified service.db :=
    reached.invariant (fun state => ∀ i, (state.calls i).Own ∧ (state.calls i).Justified state.db)
      (fun _ => ⟨trivial, trivial⟩)
      fun state action after _ held raceFree taken j => by
        obtain ⟨i, call, step, calls⟩ := Service.step_cases taken
        rw [calls]
        by_cases same : j = i
        · subst same
          rw [Function.update_self]
          exact ⟨step.own, step.justified (held j).1 (held j).2 raceFree rfl⟩
        · rw [Function.update_of_ne same]
          exact ⟨(held j).1, (held j).2.grows step.grows⟩
  have conflict := (justified i).2
  rw [answered] at conflict
  exact conflict ⟨message, rfl⟩

/-- The second call reuses the event id of the first with another amount, and both read that it is
absent. -/
def reusedEventId : List Action :=
  [.arrive 0 (.direct creditX "trace"), .arrive 1 (.direct creditReused "trace"),
    .read 0, .read 1, .commit 0, .commit 1, .reread 1, .finish 1]

theorem concurrent_conflict_justified_reused : ∃ state,
    ((concurrent .wallClock).restrict fun state action => state.raceFree action).run
      (concurrent .wallClock).initial reusedEventId = some state ∧
      state.db.Differs creditReused := by
  obtain ⟨state, ran, answered⟩ := Option.map_eq_some_iff.mp
    (show (((concurrent .wallClock).restrict fun state action => state.raceFree action).run
      (concurrent .wallClock).initial reusedEventId).map (fun state => state.calls 1) =
        some (.answered (.direct creditReused "trace")
          (eventIdConflict "eventId already exists")) by decide)
  exact ⟨state, ran, concurrent_conflict_justified
    (Machine.reachedWithin_of_run reusedEventId .initial ran) answered⟩

/-- Two first events of one new account both read that the account is absent. -/
def accountRace : List Action :=
  [.arrive 0 (.direct creditX "trace"), .arrive 1 (.direct creditY "trace"),
    .read 0, .read 1, .commit 0, .commit 1, .reread 1, .finish 1]

theorem accountRace_new_event_rejected : ∃ state,
    (concurrent .wallClock).run (concurrent .wallClock).initial accountRace = some state ∧
      state.calls 1 = .answered (.direct creditY "trace") (eventIdConflict "eventId already exists") ∧
      ¬ state.db.Differs creditY := by
  obtain ⟨state, ran, observed⟩ := Option.map_eq_some_iff.mp
    (show ((concurrent .wallClock).run (concurrent .wallClock).initial accountRace).map
      (fun state => (state.calls 1, state.db.transactions.get "y")) =
        some (.answered (.direct creditY "trace") (eventIdConflict "eventId already exists"), none) by
          decide)
  obtain ⟨answered, absent⟩ := Prod.mk.inj observed
  refine ⟨state, ran, answered, ?_⟩
  rintro ⟨row, present, _⟩
  exact Option.some_ne_none row (present.symm.trans absent)

end EventLedger.AccountService
