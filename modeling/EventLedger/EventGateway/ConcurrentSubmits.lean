import EventLedger.EventGateway.Payloads
import EventLedger.EventGateway.Resubmission
import EventLedger.Library.Trace

namespace EventLedger.EventGateway
open Library Python

variable {storage : Storage} {settings : Settings} {db next : Database} {process after : Process}
  {trace : Trace Process Action} {action : Action} {eventId : String} {submission : Submission}
  {i : Nat}

/-- The timestamp of a submission converts to UTC before and after its column stores it. -/
def Submission.Converts (storage : Storage) (submission : Submission) : Prop :=
  submission.command.eventTimestamp.utcNaive ≠ none ∧
    (storage.dateTime submission.command.eventTimestamp).utcNaive ≠ none

/-- No call is killed, and the timestamps of the calls with the event id convert to UTC. -/
def Converting (storage : Storage) (eventId : String) (_ : Process) : Action → Prop
  | .arrive _ submission =>
      submission.command.eventId = eventId → submission.Converts storage
  | .crash => False
  | _ => True

/-- A transition inserts an event when only its last state has a row. -/
def Inserts (eventId : String) (transition : Transition Process Action) : Bool :=
  (transition.before.db.events.get eventId).isNone &&
    (transition.after.db.events.get eventId).isSome

/-- A call inserts an event by one of its steps. -/
def Inserter (trace : Trace Process Action) (eventId : String) (i : Nat) : Prop :=
  ∃ transition ∈ trace, Inserts eventId transition ∧ transition.action.call = some i

/-- A call invokes the client when its step enters the await. -/
def Invokes (eventId : String) (i : Nat) (transition : Transition Process Action) : Prop :=
  transition.action.call = some i ∧ ∃ submission event,
    transition.after.submits i = .calling submission event ∧ submission.command.eventId = eventId

/-- A submission arrives at a call once. -/
def Arrived (trace : Trace Process Action) (i : Nat) (submission : Submission) : Prop :=
  ∃ transition ∈ trace, transition.action = .arrive i submission

/-- A transition keeps the rows when it leaves the events and the deliveries as they are. -/
def KeepsRows (transition : Transition Process Action) : Prop :=
  transition.after.db.events = transition.before.db.events ∧
    transition.after.db.deliveries = transition.before.db.deliveries

/-- An answer replays the stored event when it equals the command, and reports a conflict when it
differs. -/
def Answer.Compares (db : Database) (command : EventCreate) (answer : Answer) : Prop :=
  ∃ row, db.events.get command.eventId = some row ∧
    ((sameEvent row command = some true ∧
        ∃ status, answer = .returned (row.withStatus status) false) ∨
      (sameEvent row command = some false ∧ ∃ message, answer = eventIdConflict message))

/-- One call inserts and sends the event, and every other call compares its command with it. -/
structure SingleInsert (storage : Storage) (process : Process) (trace : Trace Process Action)
    (eventId : String) : Prop where
  once : (trace.filter (Inserts eventId)).length ≤ 1
  caller : ∀ i, ∀ transition ∈ trace, Invokes eventId i transition → Inserter trace eventId i
  data : ∀ transition ∈ trace, Inserts eventId transition → ∃ i submission,
    transition.action.call = some i ∧ Arrived trace i submission ∧
      submission.command.eventId = eventId ∧ process.db.Keeps storage submission
  answers : ∀ i submission answer, Arrived trace i submission →
    submission.command.eventId = eventId → ¬ Inserter trace eventId i →
    process.submits i = .answered answer → answer.Compares process.db submission.command
  rows : ∀ i submission, Arrived trace i submission → submission.command.eventId = eventId →
    ¬ Inserter trace eventId i → ∀ transition ∈ trace, transition.action.call = some i →
    KeepsRows transition

section Compare

/-- A comparison of timestamps that convert is defined. -/
theorem sameEvent_defined {event : Event} {command : EventCreate}
    (stored : event.eventTimestamp.utcNaive ≠ none)
    (received : command.eventTimestamp.utcNaive ≠ none) : sameEvent event command ≠ none := by
  obtain ⟨first, storedNaive⟩ := Option.ne_none_iff_exists'.mp stored
  obtain ⟨second, receivedNaive⟩ := Option.ne_none_iff_exists'.mp received
  unfold sameEvent
  split
  · simp [storedNaive, receivedNaive]
  · simp

/-- A later status of the stored event keeps the comparison. -/
theorem Answer.Compares.moves {command : EventCreate} {answer : Answer}
    (compares : answer.Compares db command) (moves : db.Moves storage next) :
    answer.Compares next command := by
  obtain ⟨row, present, outcome⟩ := compares
  obtain ⟨later, found, same, _⟩ := moves.advances present
  refine ⟨later, found, ?_⟩
  rw [same]
  exact outcome

/-- A call that has not inserted its event carries its submission or has compared its command. -/
def Submit.Contends (db : Database) (submission : Submission) : Submit → Prop
  | .received own | .inserting own => own = submission
  | .conflicted own => own = submission ∧ db.events.get submission.command.eventId ≠ none
  | .recording _ answer | .answered answer => answer.Compares db submission.command
  | .idle | .stored _ _ | .calling _ _ => False

theorem Submit.Contends.moves {submit : Submit} (contends : submit.Contends db submission)
    (moves : db.Moves storage next) : submit.Contends next submission := by
  cases submit with
  | received | inserting => exact contends
  | conflicted own =>
      obtain ⟨row, present⟩ := Option.ne_none_iff_exists'.mp contends.2
      obtain ⟨later, found, _⟩ := moves.advances present
      exact ⟨contends.1, found ▸ Option.some_ne_none later⟩
  | recording | answered => exact Answer.Compares.moves contends moves
  | idle | stored | calling => exact contends.elim

/-- A lookup that finds the stored event contends when the comparison is defined. -/
theorem Submission.Finds.contends {submit : Submit} (finds : submission.Finds db submit)
    (defined : ∀ row, db.events.get submission.command.eventId = some row →
      sameEvent row submission.command ≠ none) : submit.Contends db submission := by
  cases finds with
  | overflow row present compared => exact absurd compared (defined row present)
  | replay row present compared =>
      exact ⟨row, present, .inl ⟨compared, row.processingStatus, rfl⟩⟩
  | conflict row present compared => exact ⟨row, present, .inr ⟨compared, _, rfl⟩⟩

/-- A contending call keeps the rows and contends on, or it inserts its event. -/
theorem Submit.Step.contends {before after : Submit}
    (step : Submit.Step storage settings db i action before after next)
    (contends : before.Contends db submission)
    (defined : ∀ row, db.events.get submission.command.eventId = some row →
      sameEvent row submission.command ≠ none) :
    (after.Contends next submission ∧ next.events = db.events ∧ next.deliveries = db.deliveries) ∨
      (db.events.get submission.command.eventId = none ∧
        next.events.get submission.command.eventId ≠ none) := by
  cases step with
  | arrive => exact contends.elim
  | lookup own =>
      obtain rfl := contends
      refine .inl ⟨?_, rfl, rfl⟩
      rcases own.lookup_cases db with ⟨_, inserts⟩ | finds
      · rw [inserts]
        rfl
      · exact finds.contends defined
  | insert own committed =>
      obtain rfl := contends
      obtain ⟨fresh, changed⟩ := Database.commit_insert committed
      have stored := congrArg Entry.event (changed own.command.eventId)
      rw [if_pos rfl] at stored
      refine .inr ⟨fresh, fun absent => ?_⟩
      cases absent.symm.trans stored
  | rollback own violated =>
      obtain rfl := contends
      refine .inl ⟨⟨rfl, fun absent => ?_⟩, rfl, rfl⟩
      obtain ⟨events, inserted⟩ := db.events.insert_of_get (own.row storage) absent
      have flushed : EventWrite.flush storage db.events (some (.insert own.event)) = some events :=
        inserted
      simp [Database.commit, flushed, DeliveryWrite.flush] at violated
  | relookup own =>
      obtain ⟨rfl, stored⟩ := contends
      rcases own.relookup_cases db with ⟨absent, _⟩ | finds
      · exact absurd absent stored
      · exact .inl ⟨finds.contends defined, rfl, rfl⟩
  | record _ _ committed =>
      obtain ⟨events, deliveries, _⟩ := Database.commit_eq_some committed
      have same : next.events = db.events := (Option.some.inj events).symm
      refine .inl ⟨?_, same, (Option.some.inj deliveries).symm⟩
      simp only [Submit.Contends, Answer.Compares, same]
      exact contends
  | call | settle | stale | raise => exact contends.elim

end Compare

/-- The invariant ties each call with the event id to its steps. -/
structure Contended (storage : Storage) (eventId : String) (process : Process)
    (trace : Trace Process Action) : Prop where
  absent : process.db.events.get eventId = none → ∀ transition ∈ trace, ¬ Inserts eventId transition
  once : (trace.filter (Inserts eventId)).length ≤ 1
  stored : process.db.events.get eventId ≠ none → ∃ submission : Submission,
    submission.command.eventId = eventId ∧ submission.Converts storage ∧
      process.db.Keeps storage submission
  data : ∀ transition ∈ trace, Inserts eventId transition → ∃ i submission,
    transition.action.call = some i ∧ Arrived trace i submission ∧
      submission.command.eventId = eventId ∧ process.db.Keeps storage submission
  idle : ∀ i, process.submits i = .idle → ∀ transition ∈ trace, transition.action.call ≠ some i
  arrived : ∀ i submission, (process.submits i).submission = some submission →
    Arrived trace i submission
  converts : ∀ i submission, Arrived trace i submission → submission.command.eventId = eventId →
    submission.Converts storage
  caller : ∀ i, ∀ transition ∈ trace, Invokes eventId i transition → Inserter trace eventId i
  calls : ∀ i submission, Arrived trace i submission → submission.command.eventId = eventId →
    Inserter trace eventId i ∨ ((process.submits i).Contends process.db submission ∧
      ∀ transition ∈ trace, transition.action.call = some i → KeepsRows transition)

theorem contended_initial (storage : Storage) (settings : Settings) (eventId : String) :
    Contended storage eventId (gateway storage settings).initial [] where
  absent _ _ member := by cases member
  once := Nat.zero_le _
  stored present := absurd rfl present
  data _ member := by cases member
  idle _ _ _ member := by cases member
  arrived _ _ kept := by cases kept
  converts _ _ arrived := by
    obtain ⟨_, member, _⟩ := arrived
    cases member
  caller _ _ member := by cases member
  calls _ _ arrived := by
    obtain ⟨_, member, _⟩ := arrived
    cases member

section Steps
variable {transition : Transition Process Action}

theorem Inserter.append (inserter : Inserter trace eventId i) :
    Inserter (trace ++ [transition]) eventId i := by
  obtain ⟨earlier, member, inserts⟩ := inserter
  exact ⟨earlier, List.mem_append_left _ member, inserts⟩

theorem Inserter.last (inserts : Inserts eventId transition)
    (own : transition.action.call = some i) : Inserter (trace ++ [transition]) eventId i :=
  ⟨transition, List.mem_append_right _ (List.mem_singleton_self _), inserts, own⟩

/-- A submission has arrived before the last transition or by it. -/
theorem arrived_append : Arrived (trace ++ [transition]) i submission ↔
    Arrived trace i submission ∨ transition.action = .arrive i submission := by
  simp only [Arrived, List.mem_append, List.mem_singleton, or_and_right, exists_or, exists_eq_left]

/-- A stored event of a contended process compares with every command that converts. -/
theorem Contended.defined (contended : Contended storage eventId process trace)
    (own : submission.command.eventId = eventId) (converts : submission.Converts storage)
    {row : Event} (present : process.db.events.get submission.command.eventId = some row) :
    sameEvent row submission.command ≠ none := by
  obtain ⟨first, sameId, stored, status, kept⟩ := contended.stored (by rw [← own, present]; simp)
  rw [sameId, ← own, present] at kept
  obtain rfl := Option.some.inj kept
  exact sameEvent_defined stored.2 converts.1

/-- A call that owns the stored event has inserted it. -/
theorem Contended.inserter (contended : Contended storage eventId process trace)
    {submission : Submission} {event : Event}
    (owned : (process.submits i).owned = some (submission, event))
    (own : submission.command.eventId = eventId) : Inserter trace eventId i := by
  have kept : (process.submits i).submission = some submission := by
    cases state : process.submits i with
    | stored | calling =>
        rw [state] at owned
        cases owned
        rfl
    | idle | received | inserting | conflicted | recording | answered =>
        rw [state] at owned
        cases owned
  rcases contended.calls i submission (contended.arrived i submission kept) own with
    inserter | ⟨contends, _⟩
  · exact inserter
  · cases state : process.submits i with
    | stored | calling =>
        rw [state] at contends
        exact contends.elim
    | idle | received | inserting | conflicted | recording | answered =>
        rw [state] at owned
        cases owned

end Steps

theorem Submission.Finds.ne_idle {submit : Submit} (finds : submission.Finds db submit) :
    submit ≠ .idle := by
  cases finds <;> exact fun same => by cases same

/-- A step leaves a submit busy or answered. -/
theorem Submit.Step.not_idle {before after : Submit}
    (step : Submit.Step storage settings db i action before after next) : after ≠ .idle := by
  cases step with
  | lookup submission =>
      rcases submission.lookup_cases db with ⟨_, inserts⟩ | finds
      · exact inserts ▸ fun same => by cases same
      · exact finds.ne_idle
  | relookup submission =>
      rcases submission.relookup_cases db with ⟨_, conflicts⟩ | finds
      · exact conflicts ▸ fun same => by cases same
      · exact finds.ne_idle
  | settle _ _ _ _ settled =>
      rcases Submission.settle_ends settled with ⟨_, rfl⟩ | ⟨_, _, rfl, _⟩ <;>
        exact fun same => by cases same
  | arrive | insert | rollback | call | stale | raise | record => exact fun same => by cases same

theorem Submit.Step.arrives {before after : Submit}
    (step : Submit.Step storage settings db i (.arrive i submission) before after next) :
    before = .idle ∧ after = .received submission ∧ next = db := by
  cases step
  exact ⟨rfl, rfl, rfl⟩

section Preserved
variable (contended : Contended storage eventId process trace)
  (consistent : process.Consistent storage)
  (taken : process.step storage settings action = some after)
include taken

/-- A call that a step concerns takes that step itself. -/
theorem Process.call_step (own : action.call = some i) :
    ∃ submit, Submit.Step storage settings process.db i action (process.submits i) submit after.db ∧
      after.submits i = submit := by
  rcases Process.step_cases taken with
    ⟨j, submit, step, submits, _⟩ | ⟨step, _⟩ | ⟨rfl, _⟩
  · obtain rfl := Option.some.inj (own.symm.trans step.call_eq)
    exact ⟨submit, step, by rw [submits, Function.update_self]⟩
  · rw [step.call_eq] at own
    cases own
  · cases own

/-- A step of the worker or of another call keeps a submit. -/
theorem Process.submits_step {j : Nat} (running : action ≠ .crash)
    (different : action.call ≠ some j) : after.submits j = process.submits j := by
  rcases Process.step_cases taken with
    ⟨i, submit, step, submits, _⟩ | ⟨_, submits⟩ | ⟨crash, _⟩
  · have other : j ≠ i := by
      rintro rfl
      exact different step.call_eq
    rw [submits, Function.update_of_ne other]
  · rw [submits]
  · exact absurd crash running

include contended

/-- The step of a call keeps it contending or makes it the inserter. -/
theorem Contended.call (called : action.call = some i)
    (arrived : Arrived (trace ++ [⟨process, action, after⟩]) i submission)
    (own : submission.command.eventId = eventId) :
    Inserter (trace ++ [⟨process, action, after⟩]) eventId i ∨
      ((after.submits i).Contends after.db submission ∧
        ∀ transition ∈ trace ++ [⟨process, action, after⟩],
          transition.action.call = some i → KeepsRows transition) := by
  obtain ⟨submit, step, later⟩ := Process.call_step taken called
  rcases arrived_append.mp arrived with earlier | last
  · rcases contended.calls i submission earlier own with inserter | ⟨contends, rows⟩
    · exact .inl inserter.append
    · have converts := contended.converts i submission earlier own
      rcases step.contends contends (fun _ present => contended.defined own converts present) with
        ⟨kept, events, deliveries⟩ | ⟨fresh, stored⟩
      · refine .inr ⟨later ▸ kept, fun transition member called => ?_⟩
        rcases List.mem_append.mp member with before | now
        · exact rows transition before called
        · obtain rfl := List.mem_singleton.mp now
          exact ⟨events, deliveries⟩
      · refine .inl (.last ?_ called)
        simp only [Inserts, ← own, fresh, Option.isNone_none, Bool.true_and,
          Option.isSome_iff_ne_none]
        exact stored
  · obtain rfl : action = .arrive i submission := last
    obtain ⟨idle, received, same⟩ := step.arrives
    refine .inr ⟨by rw [later, received]; exact rfl, fun transition member called => ?_⟩
    rcases List.mem_append.mp member with before | now
    · exact absurd called (contended.idle i idle transition before)
    · obtain rfl := List.mem_singleton.mp now
      exact ⟨congrArg Database.events same, congrArg Database.deliveries same⟩

include consistent

/-- Only the step of a call that carries the event id inserts the event. -/
theorem Contended.inserting (inserts : Inserts eventId ⟨process, action, after⟩) :
    ∃ i submission, action.call = some i ∧ Arrived trace i submission ∧
      submission.command.eventId = eventId ∧ after.db.Keeps storage submission := by
  simp only [Inserts, Bool.and_eq_true, Option.isNone_iff_eq_none, Option.isSome_iff_ne_none]
    at inserts
  obtain ⟨fresh, stored⟩ := inserts
  have changes {next : Database} (same : next.entry eventId = process.db.entry eventId) :
      next.events.get eventId = none := (congrArg Entry.event same).trans fresh
  rcases Process.step_cases taken with
    ⟨i, submit, step, submits, _⟩ | ⟨step, _⟩ | ⟨_, rfl⟩
  · cases step.effect (consistent.owns i) with
    | silent _ same => exact absurd (changes (same eventId)) stored
    | insert submission _ received _ _ changed =>
        by_cases own : eventId = submission.command.eventId
        · have row := congrArg Entry.event (changed submission.command.eventId)
          rw [if_pos rfl] at row
          exact ⟨i, submission, step.call_eq, contended.arrived i submission received, own.symm,
            .pending, row⟩
        · exact absurd (changes ((changed eventId).trans (if_neg own))) stored
    | settle submission entry _ _ pending _ _ _ changed =>
        by_cases own : eventId = submission.command.eventId
        · have row := congrArg Entry.event pending
          rw [← own] at row
          cases fresh.symm.trans row
        · exact absurd (changes ((changed eventId).trans (if_neg own))) stored
  · cases step.effect consistent.valid consistent.current with
    | silent _ same | call _ _ _ _ same => exact absurd (changes (same eventId)) stored
    | deliver delivery event entry _ _ current _ _ _ changed =>
        by_cases own : eventId = event.eventId
        · have row := congrArg Entry.event current
          rw [← own] at row
          cases fresh.symm.trans row
        · exact absurd (changes ((changed eventId).trans (if_neg own))) stored
  · exact absurd fresh stored

/-- A call that enters its await for the event has inserted it. -/
theorem Contended.invoking (invokes : Invokes eventId i ⟨process, action, after⟩) :
    Inserter (trace ++ [⟨process, action, after⟩]) eventId i := by
  obtain ⟨own, submission, event, calling, sameId⟩ := invokes
  obtain ⟨submit, step, later⟩ := Process.call_step taken own
  have owned : submit.owned = some (submission, event) := by
    rw [← later, show after.submits i = .calling submission event from calling]
    rfl
  cases step.effect (consistent.owns i) with
  | silent kept _ =>
      rcases kept with kept | ⟨kept, _⟩
      · exact (contended.inserter (kept.symm.trans owned) sameId).append
      · rw [kept] at owned
        cases owned
  | insert inserted fresh _ _ stored changed =>
      rw [stored] at owned
      obtain ⟨rfl, _⟩ := Prod.mk.inj (Option.some.inj owned)
      have row := congrArg Entry.event (changed inserted.command.eventId)
      rw [if_pos rfl] at row
      have present : after.db.events.get inserted.command.eventId = some _ := row
      refine .last ?_ own
      simp only [Inserts, ← sameId, fresh, present, Option.isNone_none, Option.isSome_some,
        Bool.and_self]
  | settle _ _ _ none =>
      rw [none] at owned
      cases owned

/-- A step of another call or of the worker keeps a contending call. -/
theorem Contended.other {j : Nat} (different : action.call ≠ some j)
    (same : after.submits j = process.submits j)
    (arrived : Arrived (trace ++ [⟨process, action, after⟩]) j submission)
    (own : submission.command.eventId = eventId) :
    Inserter (trace ++ [⟨process, action, after⟩]) eventId j ∨
      ((after.submits j).Contends after.db submission ∧
        ∀ transition ∈ trace ++ [⟨process, action, after⟩],
          transition.action.call = some j → KeepsRows transition) := by
  rcases arrived_append.mp arrived with earlier | last
  · rcases contended.calls j submission earlier own with inserter | ⟨contends, rows⟩
    · exact .inl inserter.append
    · refine .inr ⟨same ▸ contends.moves (consistent.step taken).2, fun transition member called => ?_⟩
      rcases List.mem_append.mp member with before | now
      · exact rows transition before called
      · obtain rfl := List.mem_singleton.mp now
        exact absurd called different
  · obtain rfl : action = .arrive j submission := last
    exact absurd rfl different

/-- While the event is absent, no step so far has inserted it. -/
theorem Contended.absent_step (absent : after.db.events.get eventId = none) :
    ∀ transition ∈ trace ++ [⟨process, action, after⟩], ¬ Inserts eventId transition := by
  intro transition member
  rcases List.mem_append.mp member with before | now
  · refine contended.absent ?_ transition before
    by_contra present
    obtain ⟨row, present⟩ := Option.ne_none_iff_exists'.mp present
    obtain ⟨later, found, _⟩ := (consistent.step taken).2.advances present
    cases absent.symm.trans found
  · obtain rfl := List.mem_singleton.mp now
    simp [Inserts, absent]

omit taken consistent in
/-- A step inserts the event only after steps that have not. -/
theorem Contended.once_step {transition : Transition Process Action}
    (current : transition.before = process) :
    ((trace ++ [transition]).filter (Inserts eventId)).length ≤ 1 := by
  subst current
  rw [List.filter_append]
  by_cases inserts : Inserts eventId transition
  · have fresh : transition.before.db.events.get eventId = none := by
      simp only [Inserts, Bool.and_eq_true, Option.isNone_iff_eq_none] at inserts
      exact inserts.1
    rw [List.filter_eq_nil_iff.mpr (contended.absent fresh)]
    simp [inserts]
  · simpa [inserts] using contended.once

/-- The stored event stays the one of a submission that converts. -/
theorem Contended.stored_step (present : after.db.events.get eventId ≠ none) :
    ∃ submission : Submission, submission.command.eventId = eventId ∧
      submission.Converts storage ∧ after.db.Keeps storage submission := by
  by_cases fresh : process.db.events.get eventId = none
  · have inserts : Inserts eventId ⟨process, action, after⟩ := by
      simp only [Inserts, fresh, Option.isNone_none, Bool.true_and, Option.isSome_iff_ne_none]
      exact present
    obtain ⟨i, submission, _, arrived, own, keeps⟩ := contended.inserting consistent taken inserts
    exact ⟨submission, own, contended.converts i submission arrived own, keeps⟩
  · obtain ⟨submission, own, stored, keeps⟩ := contended.stored fresh
    exact ⟨submission, own, stored, keeps.moves (consistent.step taken).2⟩

/-- Every inserting step belongs to a call that carries the event id. -/
theorem Contended.data_step :
    ∀ transition ∈ trace ++ [⟨process, action, after⟩], Inserts eventId transition →
      ∃ i submission, transition.action.call = some i ∧
        Arrived (trace ++ [⟨process, action, after⟩]) i submission ∧
        submission.command.eventId = eventId ∧ after.db.Keeps storage submission := by
  intro transition member inserts
  rcases List.mem_append.mp member with before | now
  · obtain ⟨i, submission, called, arrived, own, keeps⟩ := contended.data transition before inserts
    exact ⟨i, submission, called, arrived_append.mpr (.inl arrived), own,
      keeps.moves (consistent.step taken).2⟩
  · obtain rfl := List.mem_singleton.mp now
    obtain ⟨i, submission, called, arrived, own, keeps⟩ :=
      contended.inserting consistent taken inserts
    exact ⟨i, submission, called, arrived_append.mpr (.inl arrived), own, keeps⟩

omit consistent in
/-- An idle call has taken no step. -/
theorem Contended.idle_step (running : action ≠ .crash) (idle : after.submits i = .idle) :
    ∀ transition ∈ trace ++ [⟨process, action, after⟩], transition.action.call ≠ some i := by
  intro transition member
  by_cases called : action.call = some i
  · obtain ⟨submit, step, later⟩ := Process.call_step taken called
    exact absurd (later.symm.trans idle) step.not_idle
  · rw [Process.submits_step taken running called] at idle
    rcases List.mem_append.mp member with before | now
    · exact contended.idle i idle transition before
    · obtain rfl := List.mem_singleton.mp now
      exact called

omit taken consistent in
/-- Every submission that has arrived with the event id converts. -/
theorem Contended.converts_step (condition : Converting storage eventId process action)
    (arrived : Arrived (trace ++ [⟨process, action, after⟩]) i submission)
    (own : submission.command.eventId = eventId) : submission.Converts storage := by
  rcases arrived_append.mp arrived with earlier | last
  · exact contended.converts i submission earlier own
  · obtain rfl : action = .arrive i submission := last
    exact condition own

/-- Every step without a crash keeps the invariant. -/
theorem Contended.step (condition : Converting storage eventId process action) :
    Contended storage eventId after (trace ++ [⟨process, action, after⟩]) := by
  have running : action ≠ .crash := by
    rintro rfl
    exact condition
  exact {
    absent := contended.absent_step consistent taken
    once := contended.once_step rfl
    stored := contended.stored_step consistent taken
    data := contended.data_step consistent taken
    idle := fun _ => contended.idle_step taken running
    arrived := fun i submission kept => arrived_append.mpr
      ((Process.submission_of_step taken kept).imp (contended.arrived i submission) id)
    converts := fun _ _ => contended.converts_step condition
    caller := by
      intro i transition member invokes
      rcases List.mem_append.mp member with before | now
      · exact (contended.caller i transition before invokes).append
      · obtain rfl := List.mem_singleton.mp now
        exact contended.invoking consistent taken invokes
    calls := by
      intro i submission arrived own
      by_cases called : action.call = some i
      · exact contended.call taken called arrived own
      · exact contended.other consistent taken called
          (Process.submits_step taken running called) arrived own }

end Preserved

/-- In every interleaving of submits whose timestamps convert to UTC, one call inserts and sends the
event, and every other call is answered by a comparison with it. The calls share the database and
nothing else, so they may run in several processes. -/
theorem concurrent_single_insert
    (reached : (gateway storage settings).TracedWithin (Converting storage eventId) process trace) :
    SingleInsert storage process trace eventId := by
  have contended : Contended storage eventId process trace :=
    reached.invariant (Contended storage eventId) (contended_initial storage settings eventId)
      fun _ _ _ _ before contended condition taken =>
        contended.step (consistent_of_reachable before.reached.reachable) taken condition
  refine ⟨contended.once, contended.caller, contended.data,
    fun i submission answer arrived own other answered => ?_,
    fun i submission arrived own other => ?_⟩
  · rcases contended.calls i submission arrived own with inserter | ⟨contends, _⟩
    · exact absurd inserter other
    · rw [answered] at contends
      exact contends
  · rcases contended.calls i submission arrived own with inserter | ⟨_, rows⟩
    · exact absurd inserter other
    · exact rows

/-- Three calls with one event id look it up before any of them inserts it, and one of them carries
another amount. -/
def contendingSubmits : List Action :=
  [.arrive 0 ⟨creditX.event, "trace"⟩, .arrive 1 ⟨creditX.event, "trace"⟩,
    .arrive 2 ⟨creditReused.event, "trace"⟩, .advance 0, .advance 1, .advance 2, .advance 0,
    .advance 1, .advance 2, .advance 1, .advance 1, .advance 2, .advance 2, .advance 0]

theorem concurrent_single_insert_race : ∃ process trace,
    (gateway .wallClock .default).traced.run (gateway .wallClock .default).traced.initial
      contendingSubmits = some (process, trace) ∧ SingleInsert .wallClock process trace "x" := by
  obtain ⟨⟨process, trace⟩, ran⟩ := Option.isSome_iff_exists.mp
    (show ((gateway .wallClock .default).traced.run (gateway .wallClock .default).traced.initial
      contendingSubmits).isSome by decide)
  refine ⟨process, trace, ran, concurrent_single_insert
    (Machine.reachedWithin_of_always contendingSubmits ?_ .initial ran)⟩
  have credit : Submission.Converts .wallClock ⟨creditX.event, "trace"⟩ := ⟨by decide, by decide⟩
  have reused : Submission.Converts .wallClock ⟨creditReused.event, "trace"⟩ := ⟨by decide, by decide⟩
  simp [contendingSubmits, Converting, credit, reused]

end EventLedger.EventGateway
