import EventLedger.EventGateway.StatusTransitions

namespace EventLedger.EventGateway
open Library Python

variable {storage : Storage} {settings : Settings} {db next : Database} {process after : Process}
  {action : Action}

/-- The web framework renders an event unless its metadata prevents it. -/
abbrev Renderer : Type := Option (List (String × Json)) → Bool

/-- The route sets a status and at most one of two headers. -/
structure HttpResponse where
  status : Nat
  location : Option String
  idempotentReplay : Bool

/-- The route answers with the returned event, and an event that is not rendered is an unhandled
error. -/
def submitEvent (renders : Renderer) (answer : Answer) : HttpResponse :=
  match answer with
  | .returned event created =>
      if renders event.metadataJson then
        ⟨answer.status, if created then some ("/events/" ++ event.eventId) else none, !created⟩
      else ⟨500, none, false⟩
  | _ => ⟨answer.status, none, false⟩

/-- A command reads back when its timestamp is in UTC, the amount column keeps its amount, and its
metadata is not an empty object. -/
structure ReadsBack (storage : Storage) (command : EventCreate) : Prop where
  offset : command.eventTimestamp.offset = 0
  amount : storage.numeric command.amount = command.amount
  metadata : command.metadata ≠ some []

/-- A command equals its own stored event exactly when it reads back. -/
theorem sameEvent_row (dropsOffset : storage.dateTime = Datetime.dropOffset)
    (submission : Submission) (status : ProcessingStatus)
    (parsed : ∀ entries ∈ submission.command.metadata, (Json.obj entries).Parsed) :
    sameEvent ((submission.row storage).withStatus status) submission.command = some true ↔
      ReadsBack storage submission.command := by
  have columns : ((submission.row storage).withStatus status).eventTimestamp =
      submission.command.eventTimestamp.dropOffset := by
    rw [← dropsOffset]
    rfl
  have metadata := Json.pyEqOption_orNone parsed
  unfold sameEvent
  rw [columns, Datetime.dropOffset_utcNaive]
  by_cases amount : storage.numeric submission.command.amount = submission.command.amount
  · rw [if_pos ⟨rfl, rfl, amount, rfl⟩]
    cases converted : submission.command.eventTimestamp.utcNaive with
    | none =>
        simp only [Option.bind_eq_bind, Option.bind_some, Option.bind_none, reduceCtorEq, false_iff]
        intro readsBack
        rw [Datetime.utcNaive_of_offset readsBack.offset] at converted
        cases converted
    | some naive =>
        have same := Datetime.dropOffset_eq_iff submission.command.eventTimestamp converted
        have utc : submission.command.eventTimestamp.wall =
            submission.command.eventTimestamp.instant ↔
              submission.command.eventTimestamp.offset = 0 := by
          unfold Datetime.instant
          omega
        simp only [Option.bind_eq_bind, Option.bind_some, Option.pure_def, Option.some.injEq,
          Bool.and_eq_true, decide_eq_true_eq, same, utc]
        constructor
        · rintro ⟨offset, equal⟩
          exact ⟨offset, amount, metadata.mp equal⟩
        · rintro ⟨offset, _, present⟩
          exact ⟨offset, metadata.mpr present⟩
  · rw [if_neg fun fields => amount fields.2.2.1]
    simp only [Option.some.injEq, Bool.false_eq_true, false_iff]
    exact fun readsBack => amount readsBack.amount

/-- A run without a crash keeps every submit in flight. -/
def Action.crashes : Action → Bool
  | .crash => true
  | _ => false

/-- This machine performs the same steps without a crash. -/
def uninterrupted (storage : Storage) (settings : Settings) : Machine Process Action :=
  (gateway storage settings).restrict fun _ action => action.crashes = false

/-- A submit replays safely when it is answered 200 as a replay, and when none of its steps changes
an event or a delivery. -/
structure ReplaysSafely (renders : Renderer) (storage : Storage) (settings : Settings)
    (process : Process) (j : Nat) : Prop where
  progresses : ∀ last, (uninterrupted storage settings).Leads process last →
    (∃ answer, last.submits j = .answered answer) ∨
      ∃ after, last.step storage settings (.advance j) = some after
  answered : ∀ last answer, (uninterrupted storage settings).Leads process last →
    last.submits j = .answered answer →
      (submitEvent renders answer).status = 200 ∧ (submitEvent renders answer).idempotentReplay
  unchanged : ∀ last action after, (uninterrupted storage settings).Leads process last →
    action.call = some j → (uninterrupted storage settings).step last action = some after →
      after.db.events = last.db.events ∧ after.db.deliveries = last.db.deliveries

section Replayed
variable {j : Nat} {submission : Submission}

/-- The database keeps the data that a submit stored, in any status. -/
def Database.Keeps (storage : Storage) (db : Database) (submission : Submission) : Prop :=
  ∃ status, db.events.get submission.command.eventId =
    some ((submission.row storage).withStatus status)

/-- A stored event keeps its data in every step. -/
theorem Database.Keeps.moves (keeps : db.Keeps storage submission)
    (moves : db.Moves storage next) : next.Keeps storage submission := by
  obtain ⟨status, present⟩ := keeps
  obtain ⟨later, found, same, _⟩ := moves.advances present
  exact ⟨later.processingStatus, found.trans (congrArg some same)⟩

/-- A submit that stored its event keeps it in every later state. -/
theorem keeps_of_stored {first : Process} {i : Nat} {event : Event}
    (reached : (gateway storage settings).Reachable first)
    (stored : first.submits i = .stored submission event)
    (leads : (gateway storage settings).Leads first process) :
    process.db.Keeps storage submission := by
  refine leads.persists (fun state => state.db.Keeps storage submission)
    (fun state action next before keeps taken =>
      keeps.moves ((consistent_of_reachable before).step taken).2) reached ?_
  obtain ⟨rfl, entry⟩ := (consistent_of_reachable reached).owns i submission event (by rw [stored]; rfl)
  exact ⟨.pending, congrArg Entry.event entry⟩

/-- A replay is looked up, then recorded, then answered. -/
def Submit.Replaying (storage : Storage) (submission : Submission) (submit : Submit) : Prop :=
  submit = .received submission ∨
    ∃ status, submit = submission.replay ((submission.row storage).withStatus status) ∨
      submit = .answered (.returned ((submission.row storage).withStatus status) false)

/-- A lookup of a kept event replays it when the command equals it. -/
theorem Database.Keeps.lookup (keeps : db.Keeps storage submission)
    (same : ∀ status, sameEvent ((submission.row storage).withStatus status) submission.command =
      some true) : (submission.lookup db).Replaying storage submission := by
  obtain ⟨status, present⟩ := keeps
  refine .inr ⟨status, .inl ?_⟩
  simp only [Submission.lookup, present, same status]

theorem Submit.Step.replaying {before after : Submit}
    (step : Submit.Step storage settings db j action before after next)
    (keeps : db.Keeps storage submission)
    (same : ∀ status, sameEvent ((submission.row storage).withStatus status) submission.command =
      some true)
    (replaying : before.Replaying storage submission) :
    after.Replaying storage submission ∧ next.events = db.events ∧
      next.deliveries = db.deliveries := by
  rcases replaying with rfl | ⟨status, rfl | rfl⟩
  · cases step with
    | lookup => exact ⟨keeps.lookup same, rfl, rfl⟩
  · cases step with
    | record _ _ committed =>
        obtain ⟨events, deliveries, _⟩ := Database.commit_eq_some committed
        exact ⟨.inr ⟨status, .inr rfl⟩, (Option.some.inj events).symm,
          (Option.some.inj deliveries).symm⟩
  · cases step

/-- Every later step without a crash keeps the event and the replay. -/
theorem replaying_step (reached : (gateway storage settings).Reachable process)
    (same : ∀ status, sameEvent ((submission.row storage).withStatus status) submission.command =
      some true)
    (held : process.db.Keeps storage submission ∧
      (process.submits j).Replaying storage submission)
    (running : action.crashes = false)
    (taken : process.step storage settings action = some after) :
    after.db.Keeps storage submission ∧ (after.submits j).Replaying storage submission := by
  refine ⟨held.1.moves ((consistent_of_reachable reached).step taken).2, ?_⟩
  rcases Process.step_cases taken with
    ⟨i, submit, step, submits, _⟩ | ⟨_, submits⟩ | ⟨rfl, _⟩
  · rw [submits]
    by_cases own : j = i
    · subst own
      rw [Function.update_self]
      exact (step.replaying held.1 same held.2).1
    · rw [Function.update_of_ne own]
      exact held.2
  · rw [submits]
    exact held.2
  · cases running

/-- A command that equals its stored event is replayed safely when the framework renders it. -/
theorem replaysSafely_of_same {renders : Renderer}
    (reached : (gateway storage settings).Reachable process)
    (keeps : process.db.Keeps storage submission)
    (received : process.submits j = .received submission)
    (same : ∀ status, sameEvent ((submission.row storage).withStatus status) submission.command =
      some true)
    (rendered : renders submission.command.metadata) :
    ReplaysSafely renders storage settings process j := by
  have held (last : Process) (leads : (uninterrupted storage settings).Leads process last) :=
    leads.persistsWithin
      (fun state => state.db.Keeps storage submission ∧
        (state.submits j).Replaying storage submission)
      (fun _ _ _ before held running taken => replaying_step before same held running taken)
      reached ⟨keeps, .inl received⟩
  refine ⟨fun last leads => ?_, fun last answer leads answered => ?_,
    fun last action after leads own taken => ?_⟩
  · obtain ⟨_, _, now | ⟨status, now | now⟩⟩ := held last leads
    · refine .inr ⟨last.move j (submission.lookup last.db) last.db, ?_⟩
      simp [Process.step, Submit.advance, now]
    · refine .inr ⟨last.move j (.answered (.returned
        ((submission.row storage).withStatus status) false)) { last.db with
          audit := last.db.audit ++ [submission.record .eventReplayed .replay none] }, ?_⟩
      simp [Process.step, Submit.advance, now, Submission.replay, Database.commit,
        EventWrite.flush, DeliveryWrite.flush]
    · exact .inl ⟨_, now⟩
  · obtain ⟨_, _, now | ⟨status, now | now⟩⟩ := held last leads
    · rw [now] at answered
      cases answered
    · rw [now] at answered
      cases answered
    · rw [now] at answered
      cases answered
      have renders : renders ((submission.row storage).withStatus status).metadataJson = true :=
        rendered
      simp [submitEvent, renders, Answer.status]
  · obtain ⟨reachable, keeps, replaying⟩ := held last leads
    obtain ⟨_, taken⟩ := Machine.step_restrict.mp taken
    rcases Process.step_cases taken with
      ⟨i, submit, step, submits, _⟩ | ⟨step, _⟩ | ⟨rfl, _⟩
    · obtain rfl := Option.some.inj (own.symm.trans step.call_eq)
      exact (step.replaying keeps same replaying).2
    · rw [step.call_eq] at own
      cases own
    · cases own

/-- A submit reaches the answer that its lookup has decided. -/
theorem leads_answered {answer : Answer} (received : process.submits j = .received submission)
    (looked : submission.lookup process.db = .answered answer ∨
      ∃ record, submission.lookup process.db = .recording record answer) :
    ∃ last, (uninterrupted storage settings).Leads process last ∧
      last.submits j = .answered answer := by
  have first : (uninterrupted storage settings).Leads process
      (process.move j (submission.lookup process.db) process.db) := by
    refine .single ⟨.advance j, Machine.step_restrict.mpr ⟨rfl, ?_⟩⟩
    simp [gateway, Process.step, Submit.advance, received]
  rcases looked with answered | ⟨record, recording⟩
  · exact ⟨_, first, by simp [Process.move, answered]⟩
  · refine ⟨(process.move j (submission.lookup process.db) process.db).move j (.answered answer)
      { process.db with audit := process.db.audit ++ [record] }, first.tail ⟨.advance j, ?_⟩, ?_⟩
    · refine Machine.step_restrict.mpr ⟨rfl, ?_⟩
      simp [gateway, Process.step, Process.move, Submit.advance, recording, Database.commit,
        EventWrite.flush, DeliveryWrite.flush]
    · simp [Process.move]

/-- A submit that replays safely finds its command equal to the stored event. -/
theorem ReplaysSafely.same {renders : Renderer}
    (safe : ReplaysSafely renders storage settings process j)
    (received : process.submits j = .received submission) {status : ProcessingStatus}
    (present : process.db.events.get submission.command.eventId =
      some ((submission.row storage).withStatus status)) :
    sameEvent ((submission.row storage).withStatus status) submission.command = some true ∧
      renders submission.command.metadata := by
  have answered {answer : Answer}
      (looked : submission.lookup process.db = .answered answer ∨
        ∃ record, submission.lookup process.db = .recording record answer) :
      (submitEvent renders answer).status = 200 := by
    obtain ⟨last, leads, answered⟩ := leads_answered received looked
    exact (safe.answered last answer leads answered).1
  cases same : sameEvent ((submission.row storage).withStatus status) submission.command with
  | none =>
      have status := answered (.inl (by simp only [Submission.lookup, present, same]; rfl))
      cases status
  | some equal =>
      cases equal with
      | false =>
          have status := answered (.inr ⟨_, by simp only [Submission.lookup, present, same]; rfl⟩)
          cases status
      | true =>
          have status := answered (.inr ⟨_, by simp only [Submission.lookup, present, same]; rfl⟩)
          refine ⟨rfl, ?_⟩
          by_contra refused
          simp [submitEvent, Event.withStatus, Submission.row, Event.stored, Submission.event,
            refused] at status

end Replayed

/-- A resubmission of a stored event is replayed safely exactly when its command reads back and the
framework renders its metadata. -/
theorem resubmission_replayed_iff (renders : Renderer)
    (dropsOffset : storage.dateTime = Datetime.dropOffset) {first : Process} {i j : Nat}
    {submission resubmission : Submission} {event : Event}
    (parsed : ∀ entries ∈ submission.command.metadata, (Json.obj entries).Parsed)
    (reached : (gateway storage settings).Reachable first)
    (stored : first.submits i = .stored submission event)
    (leads : (gateway storage settings).Leads first process)
    (identical : resubmission.command = submission.command)
    (received : process.submits j = .received resubmission) :
    ReplaysSafely renders storage settings process j ↔
      ReadsBack storage submission.command ∧ renders submission.command.metadata := by
  obtain ⟨status, present⟩ : process.db.Keeps storage resubmission := by
    obtain ⟨status, present⟩ := keeps_of_stored reached stored leads
    refine ⟨status, ?_⟩
    rw [identical, present]
    simp only [Submission.row, Submission.event, identical]
  rw [← identical] at parsed ⊢
  constructor
  · intro safe
    obtain ⟨same, rendered⟩ := safe.same received present
    exact ⟨(sameEvent_row dropsOffset resubmission status parsed).mp same, rendered⟩
  · rintro ⟨readsBack, rendered⟩
    exact replaysSafely_of_same (leads.reachable reached) ⟨status, present⟩ received
      (fun status => (sameEvent_row dropsOffset resubmission status parsed).mpr readsBack) rendered

/-- A submit stores one event. -/
def storing (command : TransactionCreate) : List Action :=
  [.arrive 0 ⟨command.event, "trace"⟩, .advance 0, .advance 0]

/-- A later submit receives the same command. -/
def resubmitting (command : TransactionCreate) : List Action := [.arrive 1 ⟨command.event, "retry"⟩]

/-- The two submits of one command reach the start of the second lookup. -/
theorem resubmission_run (command : TransactionCreate) : ∃ first process,
    (gateway .wallClock .default).run (gateway .wallClock .default).initial (storing command) =
      some first ∧
    (gateway .wallClock .default).run first (resubmitting command) = some process ∧
    first.submits 0 = .stored ⟨command.event, "trace"⟩
      (Submission.row .wallClock ⟨command.event, "trace"⟩) ∧
    process.submits 1 = .received ⟨command.event, "retry"⟩ := by
  obtain ⟨first, ran, submits⟩ := Option.map_eq_some_iff.mp
    (show ((gateway .wallClock .default).run (gateway .wallClock .default).initial
      (storing command)).map (fun state => (state.submits 0, state.submits 1)) =
        some (.stored ⟨command.event, "trace"⟩
          (Submission.row .wallClock ⟨command.event, "trace"⟩), .idle) by rfl)
  obtain ⟨stored, idle⟩ := Prod.mk.inj submits
  refine ⟨first, first.move 1 (.received ⟨command.event, "retry"⟩) first.db, ran, ?_, stored, ?_⟩
  · simp [Machine.run, resubmitting, gateway, Process.step, idle]
  · simp [Process.move]

theorem resubmission_replayed_utc : ∃ first process,
    (gateway .wallClock .default).run (gateway .wallClock .default).initial (storing creditX) =
      some first ∧
    (gateway .wallClock .default).run first (resubmitting creditX) = some process ∧
    ReplaysSafely (fun _ => true) .wallClock .default process 1 := by
  obtain ⟨first, process, ran, resubmitted, stored, received⟩ := resubmission_run creditX
  have identical : (⟨creditX.event, "retry"⟩ : Submission).command = creditX.event := rfl
  exact ⟨first, process, ran, resubmitted, (resubmission_replayed_iff _ rfl (by rintro _ ⟨⟩)
    (Machine.reachable_of_run _ .initial ran) stored (Machine.leads_of_run _ resubmitted) identical
    received).mpr ⟨⟨rfl, rfl, by rintro ⟨⟩⟩, rfl⟩⟩

theorem resubmission_eastern_conflicts : ∃ first process,
    (gateway .wallClock .default).run (gateway .wallClock .default).initial (storing creditEastern) =
      some first ∧
    (gateway .wallClock .default).run first (resubmitting creditEastern) = some process ∧
    first.submits 0 = .stored ⟨creditEastern.event, "trace"⟩
      (Submission.row .wallClock ⟨creditEastern.event, "trace"⟩) ∧
    process.submits 1 = .received ⟨creditEastern.event, "retry"⟩ ∧
    ¬ ReplaysSafely (fun _ => true) .wallClock .default process 1 := by
  obtain ⟨first, process, ran, resubmitted, stored, received⟩ := resubmission_run creditEastern
  refine ⟨first, process, ran, resubmitted, stored, received, fun safe => ?_⟩
  obtain ⟨status, present⟩ : process.db.Keeps .wallClock ⟨creditEastern.event, "trace"⟩ :=
    keeps_of_stored (Machine.reachable_of_run _ .initial ran) stored
      (Machine.leads_of_run _ resubmitted)
  have same := (safe.same received present).1
  have readsBack := (sameEvent_row rfl ⟨creditEastern.event, "retry"⟩ status
    (by rintro _ ⟨⟩)).mp same
  exact absurd readsBack.offset (by decide)

end EventLedger.EventGateway
