import EventLedger.AccountService.ConcurrentEffects
import EventLedger.AccountService.History

namespace EventLedger.AccountService
open Library Python

variable {storage : Storage} {db next : Database} {service after : Service} {action : Action}
  {request other : Request} {work : Work} {trace : Trace Service Action}

/-- Two requests are apart when they have different accounts and different event ids. -/
def Request.Apart (request other : Request) : Prop :=
  request.accountId ≠ other.accountId ∧ request.command.eventId ≠ other.command.eventId

/-- A commit that writes a transaction is isolated when every other call between its read and its
commit is apart from it. -/
def Service.Isolated (service : Service) : Action → Prop
  | .commit i => ∀ request work, service.calls i = .working request work →
      work.transaction ≠ none → ∀ j other prepared, j ≠ i →
        service.calls j = .working other prepared → request.Apart other
  | _ => True

/-- The balance of a new transaction is read again after its commit, which settles everything else
that an answer says. -/
def Answer.exceptBalance : Answer → Answer
  | .result body =>
      .result (if body.idempotentReplay then body else { body with balance := 0 })
  | answer => answer

/-- A commit settles the answer of its call to one request. -/
structure Commit where
  call : Nat
  request : Request
  answer : Answer

/-- The end of a commit shows its request and its answer. -/
def commitOf (transition : Transition Service Action) : Option Commit :=
  match transition.action with
  | .commit i =>
      match transition.after.calls i with
      | .answered request answer => some ⟨i, request, answer.exceptBalance⟩
      | _ => none
  | _ => none

/-- These commits were made by a run, in their order. -/
def commits (trace : Trace Service Action) : List Commit := trace.filterMap commitOf

/-- The requests of the commits, served one after the other, lead to the same database and get the
same answers up to the balances that are read after a commit, and only a database error is answered
without a commit. -/
structure Service.Serial (storage : Storage) (service : Service) (order : List Commit) : Prop where
  database : service.db = (History.after storage (order.map Commit.request)).db
  answers : (History.after storage (order.map Commit.request)).log.map
      (fun entry => (entry.1, entry.2.exceptBalance)) =
    order.map fun commit => (commit.request, commit.answer)
  once : (order.map Commit.call).Nodup
  answered : ∀ i request answer, service.calls i = .answered request answer →
    answer = .databaseError ∨ ⟨i, request, answer.exceptBalance⟩ ∈ order

section Reads

/-- A commit keeps the rows that a request apart from its own reads. -/
theorem begin_kept (committed : db.commit storage (request.begin storage db) = some next)
    (apart : (request.begin storage db).transaction ≠ none → request.Apart other) :
    other.begin storage db = other.begin storage next := by
  rcases request.begin_cases storage db with
    silent | ⟨_, _, ⟨_, same⟩ | ⟨account, present, _, same⟩⟩
  · rw [Database.commit_silent silent] at committed
    obtain rfl := Option.some.inj committed
    exact Request.begin_congr rfl rfl
  · obtain ⟨accountId, eventId⟩ := apart (by rw [same]; exact Option.some_ne_none _)
    rw [same] at committed
    have accounts := created_accounts committed other.accountId
    rw [if_neg accountId] at accounts
    obtain ⟨_, transactions, _, stored, rfl⟩ := Database.commit_created committed
    exact Request.begin_congr ((Table.get_insert stored _).trans (if_neg eventId)).symm accounts.symm
  · obtain ⟨accountId, eventId⟩ := apart (by rw [same]; exact Option.some_ne_none _)
    rw [same] at committed
    have accounts := updated_accounts (Table.key_of_get present) committed other.accountId
    rw [if_neg (Ne.symm accountId)] at accounts
    obtain ⟨transactions, stored, rfl⟩ := Database.commit_updated committed
    exact Request.begin_congr ((Table.get_insert stored _).trans (if_neg eventId)).symm accounts.symm

end Reads

section Invariant
variable {order : List Commit} {i : Nat} {before call : Call}

/-- The work of a call is current when its request would prepare it again in this database. -/
def Call.Current (storage : Storage) (db : Database) : Call → Prop
  | .working request work => work = request.begin storage db
  | .rolledBack _ | .recovering _ _ => False
  | _ => True

/-- The invariant keeps the work of each call current and each commit at the end of its call. -/
structure Service.Ordered (storage : Storage) (service : Service) (order : List Commit) : Prop
    extends service.Serial storage order where
  current : ∀ i, (service.calls i).Current storage service.db
  ended : ∀ commit ∈ order, ∃ answer, service.calls commit.call = .answered commit.request answer

/-- Current work is committed like `apply`, and every other step of its call leaves the database
and the answer to a commit alone. -/
theorem Call.Step.current (step : Call.Step storage db i action before call next)
    (current : before.Current storage db) :
    (∃ request, action = .commit i ∧ before = .working request (request.begin storage db) ∧
      call = .answered request (request.apply storage db).2 ∧
      next = (request.apply storage db).1) ∨
    (next = db ∧ call.Current storage db ∧ action ≠ .commit i ∧
      ∀ request answer, call = .answered request answer → answer = .databaseError) := by
  cases step with
  | commit request work committed =>
      obtain rfl : work = request.begin storage db := current
      obtain ⟨applied, answered⟩ := request.apply_eq storage db
      exact .inl ⟨request, rfl, rfl, by rw [answered],
        Option.some.inj (committed.symm.trans applied)⟩
  | rollback request work violated =>
      obtain rfl : work = request.begin storage db := current
      obtain ⟨applied, _⟩ := request.apply_eq storage db
      rw [violated] at applied
      cases applied
  | arrive request => exact .inr ⟨rfl, trivial, nofun, fun _ _ same => Call.noConfusion same⟩
  | read request => exact .inr ⟨rfl, rfl, nofun, fun _ _ same => Call.noConfusion same⟩
  | failWorking request work =>
      exact .inr ⟨rfl, trivial, nofun, fun _ _ same => (Call.answered.inj same).2.symm⟩
  | reread | finish | failRecovering => exact current.elim

/-- The work of every other call survives an isolated commit. -/
theorem Call.Current.kept (current : call.Current storage db)
    (committed : db.commit storage (request.begin storage db) = some next)
    (apart : (request.begin storage db).transaction ≠ none →
      ∀ other work, call = .working other work → request.Apart other) :
    call.Current storage next := by
  cases call with
  | working other work =>
      have same : work = other.begin storage db := current
      rw [same]
      exact begin_kept committed fun writes => apart writes other work rfl
  | idle | received | rolledBack | recovering | answered => exact current

/-- Commits extend with the run. -/
theorem commits_concat (transition : Transition Service Action) :
    commits (trace ++ [transition]) = commits trace ++ (commitOf transition).toList := by
  rw [commits, List.filterMap_append]
  cases ended : commitOf transition <;> simp [commits, ended]

/-- A commit extends the serial order by its request. -/
theorem Service.Ordered.committed (ordered : service.Ordered storage order)
    (isolated : service.Isolated (.commit i))
    (working : service.calls i = .working request (request.begin storage service.db))
    (calls : after.calls =
      Function.update service.calls i (.answered request (request.apply storage service.db).2))
    (applied : after.db = (request.apply storage service.db).1) :
    after.Ordered storage
      (order ++ [⟨i, request, (request.apply storage service.db).2.exceptBalance⟩]) := by
  have committed := (request.apply_eq storage service.db).1
  have unended : ∀ commit ∈ order, commit.call ≠ i := by
    intro commit member same
    obtain ⟨answer, ended⟩ := ordered.ended commit member
    rw [same, working] at ended
    cases ended
  refine ⟨⟨?_, ?_, ?_, ?_⟩, ?_, ?_⟩
  · rw [List.map_append, List.map_singleton, History.after_concat, applied, ordered.database]
    rfl
  · simp only [List.map_append, List.map_singleton, History.after_concat, History.serve,
      ← ordered.answers, ordered.database]
  · rw [List.map_append]
    refine List.nodup_append.mpr ⟨ordered.once, List.nodup_singleton i, ?_⟩
    intro j old k new same
    obtain ⟨commit, member, rfl⟩ := List.mem_map.mp old
    exact unended commit member (same.trans (List.mem_singleton.mp new))
  · intro j other answer answered
    rw [calls] at answered
    by_cases same : j = i
    · subst same
      rw [Function.update_self] at answered
      obtain ⟨rfl, rfl⟩ := Call.answered.inj answered
      exact .inr (List.mem_append_right _ (List.mem_singleton_self _))
    · rw [Function.update_of_ne same] at answered
      exact (ordered.answered j other answer answered).imp_right (List.mem_append_left _)
  · intro j
    rw [calls, applied]
    by_cases same : j = i
    · subst same
      rw [Function.update_self]
      trivial
    · rw [Function.update_of_ne same]
      exact (ordered.current j).kept committed fun writes other work state =>
        isolated request _ working writes j other work same state
  · intro commit member
    rw [calls]
    rcases List.mem_append.mp member with old | new
    · rw [Function.update_of_ne (unended commit old)]
      exact ordered.ended commit old
    · obtain rfl := List.mem_singleton.mp new
      exact ⟨_, Function.update_self ..⟩

/-- Every other step keeps the serial order. -/
theorem Service.Ordered.kept (ordered : service.Ordered storage order)
    (unanswered : ∀ request answer, service.calls i ≠ .answered request answer)
    (calls : after.calls = Function.update service.calls i call)
    (unchanged : after.db = service.db) (current : call.Current storage service.db)
    (failed : ∀ request answer, call = .answered request answer → answer = .databaseError) :
    after.Ordered storage order := by
  refine ⟨⟨unchanged.trans ordered.database, ordered.answers, ordered.once, ?_⟩, ?_, ?_⟩
  · intro j request answer answered
    rw [calls] at answered
    by_cases same : j = i
    · subst same
      rw [Function.update_self] at answered
      exact .inl (failed request answer answered)
    · rw [Function.update_of_ne same] at answered
      exact ordered.answered j request answer answered
  · intro j
    rw [calls, unchanged]
    by_cases same : j = i
    · subst same
      rwa [Function.update_self]
    · rw [Function.update_of_ne same]
      exact ordered.current j
  · intro commit member
    obtain ⟨answer, ended⟩ := ordered.ended commit member
    have other : commit.call ≠ i := by
      rintro rfl
      exact unanswered _ _ ended
    rw [calls, Function.update_of_ne other]
    exact ⟨answer, ended⟩

/-- A step in isolation keeps the order of the commits so far serial. -/
theorem Service.Ordered.step (ordered : service.Ordered storage (commits trace))
    (isolated : service.Isolated action) (taken : service.step storage action = some after) :
    after.Ordered storage (commits (trace ++ [⟨service, action, after⟩])) := by
  obtain ⟨i, call, step, calls⟩ := Service.step_cases taken
  rw [commits_concat]
  rcases step.current (ordered.current i) with
    ⟨request, rfl, working, answered, applied⟩ | ⟨unchanged, current, silent, failed⟩
  · have ended : commitOf ⟨service, .commit i, after⟩ =
        some ⟨i, request, (request.apply storage service.db).2.exceptBalance⟩ := by
      simp only [commitOf, calls, Function.update_self, answered]
    rw [ended]
    exact ordered.committed isolated working (answered ▸ calls) applied
  · have none : commitOf ⟨service, action, after⟩ = none := by
      cases action with
      | commit j => exact absurd (congrArg Action.commit step.call) silent
      | arrive | read | reread | finish | fail => rfl
    rw [none, Option.toList_none, List.append_nil]
    exact ordered.kept (fun _ _ => step.unanswered) calls unchanged current failed

end Invariant

/-- Isolated commits make every run of the concurrent service serializable in commit order. -/
theorem concurrent_serializable
    (traced : (concurrent storage).TracedWithin Service.Isolated service trace) :
    service.Serial storage (commits trace) := by
  have ordered : service.Ordered storage (commits trace) := by
    refine traced.invariant (fun service trace => service.Ordered storage (commits trace)) ?_ ?_
    · exact ⟨⟨rfl, rfl, List.nodup_nil, fun _ _ _ answered => nomatch answered⟩,
        fun _ => trivial, fun _ member => nomatch member⟩
    · intro service trace action after _ ordered isolated taken
      exact ordered.step isolated taken
  exact ordered.toSerial

/-- This credit goes to another account. -/
def creditOther : TransactionCreate :=
  { creditY with accountId := "b", accountIdLength := by decide }

/-- Two calls on different accounts have read before either of them commits. -/
def overlapping : List Action :=
  [.arrive 0 (.direct creditX "trace"), .arrive 1 (.direct creditOther "trace"), .read 0, .read 1]

/-- Both calls are at their commit. -/
def overlapped : Nat → Call
  | 0 => .working (.direct creditX "trace") (Request.begin .wallClock (.direct creditX "trace") .empty)
  | 1 => .working (.direct creditOther "trace")
      (Request.begin .wallClock (.direct creditOther "trace") .empty)
  | _ => .idle

theorem overlapped_isolated : (Service.mk .empty overlapped).Isolated (.commit 1) := by
  intro request work working _ j other prepared different state
  obtain ⟨rfl, _⟩ := Call.working.inj working
  match j with
  | 0 =>
      obtain ⟨rfl, _⟩ := Call.working.inj state
      exact ⟨by decide, by decide⟩
  | 1 => exact absurd rfl different
  | j + 2 => cases state

theorem overlapping_run : ∃ trace, commits trace = [] ∧
    (concurrent .wallClock).traced.run (concurrent .wallClock).traced.initial overlapping =
      some (⟨.empty, overlapped⟩, trace) := by
  refine ⟨_, ?nothing, congrArg (fun calls => some (Service.mk .empty calls, _)) ?calls⟩
  case calls =>
    funext j
    match j with
    | 0 => rfl
    | 1 => rfl
    | j + 2 => rfl
  case nothing => rfl

theorem concurrent_serializable_overlapped : ∃ (service : Service) (trace : Trace Service Action),
    (commits trace).map Commit.call = [1] ∧ service.Serial .wallClock (commits trace) := by
  obtain ⟨trace, none, ran⟩ := overlapping_run
  have reached : (concurrent .wallClock).TracedWithin Service.Isolated ⟨.empty, overlapped⟩ trace :=
    Machine.reachedWithin_of_always overlapping (by simp [overlapping, Service.Isolated])
      .initial ran
  have committed := reached.step (.commit 1) overlapped_isolated rfl
  refine ⟨_, _, ?_, concurrent_serializable committed⟩
  rw [commits_concat, none]
  rfl

end EventLedger.AccountService
