import EventLedger.AccountService.ConcurrentBalance
import EventLedger.Library.Trace
import Mathlib.Data.Set.Card

namespace EventLedger.AccountService
open Library Python

variable {storage : Storage} {db next : Database} {service : Service}
  {trace : Trace Service Action} {request : Request}

/-- Every action is a step of one call. -/
def Action.call : Action → Nat
  | .arrive call _ | .read call | .commit call | .reread call | .finish call | .fail call => call

/-- The transitions of one call are read in the order of the run. -/
def stepsOf (trace : Trace Service Action) (i : Nat) : Trace Service Action :=
  trace.labelled Action.call i

/-- The commits of some transitions append these audit records. -/
def addedRecords (trace : Trace Service Action) : List AuditRecord :=
  trace.flatMap fun transition =>
    transition.after.db.audit.drop transition.before.db.audit.length

/-- The commits of some transitions append these transactions. -/
def addedTransactions (trace : Trace Service Action) : List Transaction :=
  trace.flatMap fun transition =>
    transition.after.db.transactions.rows.drop transition.before.db.transactions.rows.length

/-- A replay returns the result of the earlier call. -/
def Answer.IsReplay (answer : Answer) : Prop :=
  ∃ result, answer = .result result ∧ result.idempotentReplay = true

/-- A rejection raises an HTTP exception. -/
def Answer.IsRejection (answer : Answer) : Prop :=
  ∃ status code message, answer = .httpException status code message

/-- A call is applied when its answer is 201. -/
def Call.Applied (call : Call) (request : Request) : Prop :=
  ∃ answer, call = .answered request answer ∧ answer.status = 201

/-- A transition writes nothing when it leaves the accounts and the transactions as they are. -/
def WritesNothing (transition : Transition Service Action) : Prop :=
  transition.after.db.accounts = transition.before.db.accounts ∧
    transition.after.db.transactions = transition.before.db.transactions

/-- The ledger holds a transaction that is identical to the command. -/
def Database.Identical (db : Database) (command : TransactionCreate) : Prop :=
  ∃ row, db.transactions.get command.eventId = some row ∧ sameTransaction row command = some true

/-- The answers of the calls account for every write of a run. -/
structure Service.Accounted (service : Service) (trace : Trace Service Action) : Prop where
  appends : ∀ transition ∈ trace,
    transition.before.db.audit <+: transition.after.db.audit ∧
      transition.before.db.transactions.rows <+: transition.after.db.transactions.rows
  silent : ∀ i, (∀ request, ¬ (service.calls i).Applied request) →
    ∀ transition ∈ trace, transition.action.call = i → WritesNothing transition
  audited : ∀ i request answer, service.calls i = .answered request answer →
    answer.IsReplay ∨ answer.IsRejection → (addedRecords (stepsOf trace i)).length = 1
  applied : ∀ i request, (service.calls i).Applied request →
    ∃ row, addedTransactions (stepsOf trace i) = [row] ∧ row.eventId = request.command.eventId
  once : ∀ eventId,
    {i | ∃ request, (service.calls i).Applied request ∧ request.command.eventId = eventId}.encard =
        (service.db.transactions.rows.filter fun row => decide (row.eventId = eventId)).length ∧
      (service.db.transactions.rows.filter fun row => decide (row.eventId = eventId)).length ≤ 1
  replayed : ∀ i request answer, service.calls i = .answered request answer →
    answer.status = 200 → service.db.Identical request.command

theorem Database.Identical.grows {command : TransactionCreate} (identical : db.Identical command)
    (grows : db.Grows next) : next.Identical command := by
  obtain ⟨row, present, same⟩ := identical
  exact ⟨row, grows.transactions present, same⟩

section Work

/-- Work answers a replay or a rejection with one audit record, and a replay with an identical
transaction. -/
def Work.Answers (db : Database) (request : Request) (work : Work) : Prop :=
  (work.answer.IsReplay ∨ work.answer.IsRejection → work.records.length = 1) ∧
    (work.answer.status = 200 → db.Identical request.command)

theorem Work.audited_answers {record : AuditRecord} {status : Nat} {code message : String}
    (error : status ≠ 200) :
    (Work.audited record (.httpException status code message)).Answers db request :=
  ⟨fun _ => rfl, fun replayed => absurd replayed error⟩

theorem Work.raised_answers : Work.raised.Answers db request := by
  refine ⟨?_, fun replayed => absurd replayed (show 500 ≠ 200 by decide)⟩
  rintro (⟨result, same, _⟩ | ⟨status, code, message, same⟩) <;> cases same

/-- A call replays only a transaction that is identical to its command. -/
theorem Request.Compares.answers {message : String} {work : Work}
    (compares : request.Compares db message work) : work.Answers db request := by
  cases compares with
  | undefined => exact Work.raised_answers
  | conflict => exact Work.audited_answers (by decide)
  | replay existing present same => exact ⟨fun _ => rfl, fun _ => ⟨existing, present, same⟩⟩

theorem Request.write_answers {account : Account} {created : Bool} :
    (request.write storage account created).Answers db request := by
  refine ⟨?_, fun replayed => absurd replayed (show 201 ≠ 200 by decide)⟩
  rintro (⟨result, same, replay⟩ | ⟨status, code, message, same⟩)
  · cases same
    cases replay
  · cases same

theorem Request.Begins.answers {work : Work} (begins : request.Begins storage db work) :
    work.Answers db request := by
  cases begins with
  | path | currency => exact Work.audited_answers (by decide)
  | compare _ _ compares => exact compares.answers
  | create | update => exact Request.write_answers

theorem Request.recover_answers (request : Request) (db : Database) :
    (request.recover db).Answers db request := by
  rcases request.recover_cases db with compares | ⟨_, conflict⟩
  · exact compares.answers
  · rw [conflict]
    exact Work.audited_answers (by decide)

/-- The pending work of a call answers it. -/
def Call.Answering (db : Database) : Call → Prop
  | .working request work | .recovering request work => work.Answers db request
  | _ => True

theorem Call.Answering.grows {call : Call} (answering : call.Answering db) (grows : db.Grows next) :
    call.Answering next := by
  cases call with
  | working | recovering => exact ⟨answering.1, fun replayed => (answering.2 replayed).grows grows⟩
  | idle | received | rolledBack | answered => trivial

theorem Call.Step.answering {i : Nat} {action : Action} {before after : Call}
    (step : Call.Step storage db i action before after next) : after.Answering next := by
  cases step with
  | read request => exact (request.begins storage db).answers
  | reread request => exact request.recover_answers db
  | arrive | commit | rollback | finish | failWorking | failRecovering => trivial

end Work

/-- A commit of prepared work is silent or appends the transaction of its request. -/
theorem Work.Prepared.committed {work : Work} (prepared : work.Prepared storage db request)
    (committed : db.commit storage work = some next) :
    next.audit = db.audit ++ work.records ∧
      ((work.answer.status ≠ 201 ∧ next.accounts = db.accounts ∧
          next.transactions = db.transactions) ∨
        (work.answer.status = 201 ∧ db.transactions.get request.command.eventId = none ∧
          next.transactions.rows = db.transactions.rows ++ [request.transaction.stored storage])) := by
  rcases prepared with silent | rfl | ⟨account, row, rfl, own, present, currency⟩
  · obtain ⟨accounts, transactions, audit⟩ := silent_tables silent committed
    exact ⟨audit, .inl ⟨silent.status, accounts, transactions⟩⟩
  · have rows := created_transactions committed
    obtain ⟨_, _, _, stored, same⟩ := Database.commit_created committed
    exact ⟨congrArg Database.audit same, .inr ⟨rfl, Table.get_of_insert stored, rows⟩⟩
  · have rows := updated_transactions committed
    obtain ⟨_, stored, same⟩ := Database.commit_updated committed
    exact ⟨congrArg Database.audit same, .inr ⟨rfl, Table.get_of_insert stored, rows⟩⟩

section Steps

theorem addedRecords_append (first second : Trace Service Action) :
    addedRecords (first ++ second) = addedRecords first ++ addedRecords second :=
  List.flatMap_append

theorem addedTransactions_append (first second : Trace Service Action) :
    addedTransactions (first ++ second) = addedTransactions first ++ addedTransactions second :=
  List.flatMap_append

/-- Some steps write nothing when none of them adds a record, a transaction or a balance. -/
structure Untouched (steps : Trace Service Action) : Prop where
  records : addedRecords steps = []
  transactions : addedTransactions steps = []
  silent : ∀ transition ∈ steps, WritesNothing transition

/-- The steps of an answered call match its answer. -/
structure Answer.Accounts (storage : Storage) (db : Database) (request : Request)
    (steps : Trace Service Action) (answer : Answer) : Prop where
  audited : answer.IsReplay ∨ answer.IsRejection → (addedRecords steps).length = 1
  applied : answer.status = 201 → addedTransactions steps = [request.transaction.stored storage] ∧
    db.transactions.get request.command.eventId ≠ none
  silent : answer.status ≠ 201 → ∀ transition ∈ steps, WritesNothing transition
  replayed : answer.status = 200 → db.Identical request.command

/-- The steps of a call match its state. -/
def Call.Accounts (storage : Storage) (db : Database) (steps : Trace Service Action) : Call → Prop
  | .answered request answer => answer.Accounts storage db request steps
  | _ => Untouched steps

theorem Call.Accounts.grows {call : Call} {steps : Trace Service Action}
    (accounts : call.Accounts storage db steps) (grows : db.Grows next) :
    call.Accounts storage next steps := by
  cases call with
  | answered request answer =>
      refine ⟨accounts.audited, fun applied => ⟨(accounts.applied applied).1, ?_⟩, accounts.silent,
        fun replayed => (accounts.replayed replayed).grows grows⟩
      obtain ⟨row, present⟩ := Option.ne_none_iff_exists'.mp (accounts.applied applied).2
      rw [grows.transactions present]
      exact Option.some_ne_none row
  | idle | received | working | rolledBack | recovering => exact accounts

variable {steps : Trace Service Action} {transition : Transition Service Action}

/-- A step that leaves the database as it is keeps the call untouched. -/
theorem Untouched.idle (untouched : Untouched steps)
    (same : transition.after.db = transition.before.db) : Untouched (steps ++ [transition]) where
  records := by
    rw [addedRecords_append, untouched.records]
    simp [addedRecords, same]
  transactions := by
    rw [addedTransactions_append, untouched.transactions]
    simp [addedTransactions, same]
  silent := by
    intro step member
    rcases List.mem_append.mp member with earlier | last
    · exact untouched.silent step earlier
    · obtain rfl := List.mem_singleton.mp last
      exact ⟨congrArg Database.accounts same, congrArg Database.transactions same⟩

/-- The one commit of a call decides all that the call writes. -/
theorem Untouched.commit {work : Work} (untouched : Untouched steps)
    (prepared : work.Prepared storage transition.before.db request)
    (answers : work.Answers transition.before.db request)
    (committed : transition.before.db.commit storage work = some transition.after.db) :
    work.answer.Accounts storage transition.after.db request (steps ++ [transition]) := by
  obtain ⟨audit, outcome⟩ := prepared.committed committed
  have grows := Database.commit_grows committed
  have records : addedRecords (steps ++ [transition]) = work.records := by
    rw [addedRecords_append, untouched.records]
    simp [addedRecords, audit]
  refine ⟨fun silent => records ▸ answers.1 silent, fun applied => ?_, fun rejected => ?_,
    fun replayed => (answers.2 replayed).grows grows⟩
  · rcases outcome with ⟨other, _⟩ | ⟨_, _, rows⟩
    · exact absurd applied other
    · constructor
      · rw [addedTransactions_append, untouched.transactions]
        simp [addedTransactions, rows]
      · intro absent
        refine Table.get_eq_none.mp absent (request.transaction.stored storage) ?_ rfl
        rw [rows]
        exact List.mem_append_right _ (List.mem_singleton_self _)
  · rcases outcome with ⟨_, accounts, transactions⟩ | ⟨applied, _⟩
    · intro step member
      rcases List.mem_append.mp member with earlier | last
      · exact untouched.silent step earlier
      · obtain rfl := List.mem_singleton.mp last
        exact ⟨accounts, transactions⟩
    · exact absurd applied rejected

/-- A database error answers 503 and writes nothing. -/
theorem Untouched.failed (untouched : Untouched steps) :
    Answer.databaseError.Accounts storage db request steps := by
  refine ⟨?_, fun applied => absurd applied (by decide), fun _ => untouched.silent,
    fun replayed => absurd replayed (by decide)⟩
  rintro (⟨result, same, _⟩ | ⟨status, code, message, same⟩) <;> cases same

theorem Call.Step.accounts {i : Nat} {action : Action} {before after : Call}
    (step : Call.Step storage db i action before after next)
    (start : transition.before.db = db) (finish : transition.after.db = next)
    (prepared : before.Prepared storage db) (answering : before.Answering db)
    (accounts : before.Accounts storage db steps) :
    after.Accounts storage next (steps ++ [transition]) := by
  cases step with
  | commit request work committed =>
      subst start finish
      exact Untouched.commit accounts prepared answering committed
  | finish request work committed =>
      subst start finish
      exact Untouched.commit accounts (.inl prepared) answering committed
  | failWorking | failRecovering =>
      exact (Untouched.idle accounts (finish.trans start.symm)).failed
  | arrive | read | rollback | reread =>
      exact Untouched.idle accounts (finish.trans start.symm)

end Steps

section Rows
variable {i : Nat} {action : Action} {before after : Call}

theorem Call.Step.call (step : Call.Step storage db i action before after next) :
    action.call = i := by
  cases step <;> rfl

/-- An answered call takes no more steps. -/
theorem Call.Step.unanswered {answer : Answer}
    (step : Call.Step storage db i action before after next) :
    before ≠ .answered request answer := by
  cases step <;> simp

/-- A step of one call appends to the audit log and to the transactions. -/
theorem Call.Step.appends (step : Call.Step storage db i action before after next) :
    db.audit <+: next.audit ∧ db.transactions.rows <+: next.transactions.rows := by
  have commits {next : Database} {work : Work} (committed : db.commit storage work = some next) :
      db.audit <+: next.audit ∧ db.transactions.rows <+: next.transactions.rows := by
    obtain ⟨accounts, _, rest⟩ := Option.bind_eq_some_iff.mp committed
    obtain ⟨transactions, stored, same⟩ := Option.bind_eq_some_iff.mp rest
    obtain rfl := Option.some.inj same
    refine ⟨List.prefix_append _ _, ?_⟩
    cases present : work.transaction with
    | none =>
        rw [present] at stored
        obtain rfl := Option.some.inj stored
        exact List.prefix_refl _
    | some transaction =>
        rw [present] at stored
        rw [Table.rows_insert stored]
        exact List.prefix_append _ _
  cases step with
  | commit _ _ committed | finish _ _ committed => exact commits committed
  | arrive | read | rollback | reread | failWorking | failRecovering =>
      exact ⟨List.prefix_refl _, List.prefix_refl _⟩

/-- A step adds a transaction exactly when it answers its call with 201. -/
theorem Call.Step.rows (step : Call.Step storage db i action before after next)
    (prepared : before.Prepared storage db) :
    ((∀ request, ¬ after.Applied request) ∧ next.transactions = db.transactions) ∨
      ∃ request, after.Applied request ∧ db.transactions.get request.command.eventId = none ∧
        next.transactions.rows = db.transactions.rows ++ [request.transaction.stored storage] := by
  have commits {next : Database} {request : Request} {work : Work}
      (prepared : work.Prepared storage db request)
      (committed : db.commit storage work = some next) :
      ((∀ other, ¬ (Call.answered request work.answer).Applied other) ∧
          next.transactions = db.transactions) ∨
        ∃ other, (Call.answered request work.answer).Applied other ∧
          db.transactions.get other.command.eventId = none ∧
          next.transactions.rows = db.transactions.rows ++ [other.transaction.stored storage] := by
    obtain ⟨_, ⟨rejected, _, transactions⟩ | ⟨applied, fresh, rows⟩⟩ := prepared.committed committed
    · refine .inl ⟨?_, transactions⟩
      rintro other ⟨answer, same, applied⟩
      cases same
      exact rejected applied
    · exact .inr ⟨request, ⟨work.answer, rfl, applied⟩, fresh, rows⟩
  cases step with
  | commit _ _ committed => exact commits prepared committed
  | finish _ _ committed => exact commits (.inl prepared) committed
  | failWorking | failRecovering =>
      refine .inl ⟨?_, rfl⟩
      rintro other ⟨answer, same, applied⟩
      cases same
      cases applied
  | arrive | read | rollback | reread =>
      refine .inl ⟨?_, rfl⟩
      rintro other ⟨answer, same, _⟩
      cases same

end Rows

/-- The invariant ties every call to its steps and every transaction to one call. -/
structure Service.Tallied (storage : Storage) (service : Service)
    (trace : Trace Service Action) : Prop where
  prepared : ∀ i, (service.calls i).Prepared storage service.db
  answering : ∀ i, (service.calls i).Answering service.db
  accounts : ∀ i, (service.calls i).Accounts storage service.db (stepsOf trace i)
  stored : ∀ row ∈ service.db.transactions.rows, ∃ i request,
    (service.calls i).Applied request ∧ request.command.eventId = row.eventId
  unique : ∀ i j request other, (service.calls i).Applied request →
    (service.calls j).Applied other → request.command.eventId = other.command.eventId → i = j
  appends : ∀ transition ∈ trace,
    transition.before.db.audit <+: transition.after.db.audit ∧
      transition.before.db.transactions.rows <+: transition.after.db.transactions.rows

/-- An applied call has stored its transaction. -/
theorem Service.Tallied.present (tallied : service.Tallied storage trace) {i : Nat}
    (applied : (service.calls i).Applied request) :
    service.db.transactions.get request.command.eventId ≠ none := by
  obtain ⟨answer, answered, status⟩ := applied
  have accounts := tallied.accounts i
  rw [answered] at accounts
  exact (accounts.applied status).2

theorem Service.tallied_initial (storage : Storage) :
    (concurrent storage).initial.Tallied storage [] where
  prepared _ := trivial
  answering _ := trivial
  accounts _ := ⟨rfl, rfl, fun _ member => by cases member⟩
  stored _ member := by cases member
  unique _ _ _ _ applied := by
    obtain ⟨_, same, _⟩ := applied
    cases same
  appends _ member := by cases member

section Preserved
variable {after : Service} {i : Nat} {action : Action} {call : Call}
  (step : Call.Step storage service.db i action (service.calls i) call after.db)
  (calls : after.calls = Function.update service.calls i call)
include step calls

/-- Every step keeps the calls that are already applied. -/
theorem Call.Applied.kept {j : Nat} (applied : (service.calls j).Applied request) :
    j ≠ i ∧ (after.calls j).Applied request := by
  have different : j ≠ i := by
    rintro rfl
    obtain ⟨answer, answered, _⟩ := applied
    exact step.unanswered answered
  rw [calls, Function.update_of_ne different]
  exact ⟨different, applied⟩

/-- A call that is applied after a step was applied before it or took it. -/
theorem Call.Applied.earlier {j : Nat} (applied : (after.calls j).Applied request) :
    (j = i ∧ call.Applied request) ∨ (service.calls j).Applied request := by
  rw [calls] at applied
  by_cases same : j = i
  · subst same
    rw [Function.update_self] at applied
    exact .inl ⟨rfl, applied⟩
  · rw [Function.update_of_ne same] at applied
    exact .inr applied

/-- Every transaction keeps the call that applied it. -/
theorem Service.Tallied.stored_step (tallied : service.Tallied storage trace) :
    ∀ row ∈ after.db.transactions.rows, ∃ j request,
      (after.calls j).Applied request ∧ request.command.eventId = row.eventId := by
  have old (row : Transaction) (member : row ∈ service.db.transactions.rows) :
      ∃ j request, (after.calls j).Applied request ∧ request.command.eventId = row.eventId := by
    obtain ⟨j, request, applied, same⟩ := tallied.stored row member
    exact ⟨j, request, (applied.kept step calls).2, same⟩
  intro row member
  rcases step.rows (tallied.prepared i) with ⟨_, transactions⟩ | ⟨request, applied, _, rows⟩
  · exact old row (transactions ▸ member)
  · rw [rows] at member
    rcases List.mem_append.mp member with earlier | last
    · exact old row earlier
    · obtain rfl := List.mem_singleton.mp last
      exact ⟨i, request, by rwa [calls, Function.update_self], rfl⟩

/-- No two calls are applied under one event id. -/
theorem Service.Tallied.unique_step (tallied : service.Tallied storage trace) :
    ∀ j k request other, (after.calls j).Applied request → (after.calls k).Applied other →
      request.command.eventId = other.command.eventId → j = k := by
  have fresh {request other : Request} {k : Nat} (applied : call.Applied request)
      (earlier : (service.calls k).Applied other)
      (same : request.command.eventId = other.command.eventId) : False := by
    rcases step.rows (tallied.prepared i) with ⟨rejected, _⟩ | ⟨own, ownApplied, absent, _⟩
    · exact rejected request applied
    · obtain ⟨_, answered, _⟩ := applied
      obtain ⟨_, sameCall, _⟩ := ownApplied
      rw [answered] at sameCall
      cases sameCall
      rw [same] at absent
      exact tallied.present earlier absent
  intro j k request other applied otherApplied same
  rcases applied.earlier step calls, otherApplied.earlier step calls with
    ⟨⟨rfl, now⟩ | before, ⟨rfl, otherNow⟩ | otherBefore⟩
  · rfl
  · exact (fresh now otherBefore same).elim
  · exact (fresh otherNow before same.symm).elim
  · exact tallied.unique j k request other before otherBefore same

end Preserved

/-- Every step keeps the invariant. -/
theorem Service.Tallied.step {after : Service} {action : Action}
    (tallied : service.Tallied storage trace) (taken : service.step storage action = some after) :
    after.Tallied storage (trace ++ [⟨service, action, after⟩]) := by
  obtain ⟨i, call, step, calls⟩ := Service.step_cases taken
  refine ⟨fun j => ?_, fun j => ?_, fun j => ?_, tallied.stored_step step calls,
    tallied.unique_step step calls, fun transition member => ?_⟩
  · rw [calls]
    by_cases same : j = i
    · subst same
      rw [Function.update_self]
      exact step.prepared
    · rw [Function.update_of_ne same]
      exact (tallied.prepared j).grows step.grows
  · rw [calls]
    by_cases same : j = i
    · subst same
      rw [Function.update_self]
      exact step.answering
    · rw [Function.update_of_ne same]
      exact (tallied.answering j).grows step.grows
  · rw [calls]
    by_cases same : j = i
    · subst same
      rw [Function.update_self, stepsOf, Trace.labelled_self step.call]
      exact step.accounts rfl rfl (tallied.prepared j) (tallied.answering j) (tallied.accounts j)
    · have other : action.call ≠ j := fun own => same (own.symm.trans step.call)
      rw [Function.update_of_ne same, stepsOf, Trace.labelled_of_ne other]
      exact (tallied.accounts j).grows step.grows
  · rcases List.mem_append.mp member with earlier | last
    · exact tallied.appends transition earlier
    · obtain rfl := List.mem_singleton.mp last
      exact step.appends

theorem tallied_of_traced
    (reached : (concurrent storage).TracedWithin (fun _ _ => True) service trace) :
    service.Tallied storage trace :=
  reached.invariant (fun service trace => service.Tallied storage trace)
    (Service.tallied_initial storage) fun _ _ _ _ _ tallied _ taken => tallied.step taken

/-- The applied calls of one event id are as many as its transactions, and at most one. -/
theorem Service.Tallied.once (tallied : service.Tallied storage trace) (eventId : String) :
    {i | ∃ request, (service.calls i).Applied request ∧
        request.command.eventId = eventId}.encard =
      (service.db.transactions.rows.filter fun row => decide (row.eventId = eventId)).length ∧
    (service.db.transactions.rows.filter fun row => decide (row.eventId = eventId)).length ≤ 1 := by
  cases found : service.db.transactions.get eventId with
  | none =>
      have rows : (service.db.transactions.rows.filter fun row =>
          decide (row.eventId = eventId)) = [] := by
        rw [List.filter_eq_nil_iff]
        intro row member
        simpa using Table.get_eq_none.mp found row member
      have calls : {i | ∃ request, (service.calls i).Applied request ∧
          request.command.eventId = eventId} = ∅ := by
        rw [Set.eq_empty_iff_forall_notMem]
        rintro i ⟨request, applied, rfl⟩
        exact tallied.present applied found
      rw [rows, calls]
      simp
  | some row =>
      have rows : (service.db.transactions.rows.filter fun row =>
          decide (row.eventId = eventId)) = [row] := Table.filter_of_get found
      obtain ⟨i, request, applied, same⟩ := tallied.stored row (Table.mem_of_get found)
      have own := same.trans (Table.key_of_get found)
      have calls : {i | ∃ request, (service.calls i).Applied request ∧
          request.command.eventId = eventId} = {i} := by
        ext j
        constructor
        · rintro ⟨other, otherApplied, rfl⟩
          exact tallied.unique j i other request otherApplied applied own.symm
        · rintro rfl
          exact ⟨request, applied, own⟩
      rw [rows, calls]
      simp

/-- The answers account for every write of every run. -/
theorem concurrent_accounted
    (reached : (concurrent storage).TracedWithin (fun _ _ => True) service trace) :
    service.Accounted trace := by
  have tallied := tallied_of_traced reached
  have accounts (i : Nat) := tallied.accounts i
  refine ⟨tallied.appends, fun i rejected transition member own => ?_,
    fun i request answer answered => ?_, fun i request applied => ?_, tallied.once,
    fun i request answer answered => ?_⟩
  · have mine := Trace.mem_labelled.mpr ⟨member, own⟩
    have steps := accounts i
    cases state : service.calls i with
    | answered request answer =>
        rw [state] at steps
        exact steps.silent (fun applied => rejected request ⟨answer, state, applied⟩)
          transition mine
    | idle | received | working | rolledBack | recovering =>
        rw [state] at steps
        exact steps.silent transition mine
  · have steps := accounts i
    rw [answered] at steps
    exact steps.audited
  · obtain ⟨answer, answered, status⟩ := applied
    have steps := accounts i
    rw [answered] at steps
    exact ⟨_, (steps.applied status).1, rfl⟩
  · have steps := accounts i
    rw [answered] at steps
    exact steps.replayed

/-- One call is applied, a second is its replay and a third reuses the event id. -/
def mixedAnswers : List Action :=
  [.arrive 0 (.direct creditX "trace"), .arrive 1 (.direct creditX "trace"),
    .arrive 2 (.direct creditReused "trace"), .read 0, .read 1, .commit 0, .commit 1, .reread 1,
    .finish 1, .read 2, .commit 2]

theorem concurrent_accounted_mixed : ∃ service trace,
    (concurrent .wallClock).traced.run (concurrent .wallClock).traced.initial mixedAnswers =
      some (service, trace) ∧ service.Accounted trace := by
  obtain ⟨⟨service, trace⟩, ran⟩ := Option.isSome_iff_exists.mp
    (show ((concurrent .wallClock).traced.run (concurrent .wallClock).traced.initial
      mixedAnswers).isSome by decide)
  exact ⟨service, trace, ran, concurrent_accounted
    (Machine.reachedWithin_of_always mixedAnswers (fun _ _ _ => trivial) .initial ran)⟩

end EventLedger.AccountService
