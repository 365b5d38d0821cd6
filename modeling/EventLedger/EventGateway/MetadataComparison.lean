import EventLedger.EventGateway.ConcurrentSubmits
import EventLedger.EventGateway.FailedEvents
import EventLedger.Python.JsonEquality

namespace EventLedger.EventGateway
open Library Python

variable {storage : Storage} {settings : Settings} {db next : Database} {process after : Process}
  {action : Action} {submission resubmission : Submission} {j : Nat}

/-- The timestamp column keeps the instant of a timestamp in UTC. -/
def KeepsUtc (storage : Storage) : Prop :=
  ∀ timestamp : Datetime, timestamp.offset = 0 →
    (storage.dateTime timestamp).utcNaive = timestamp.utcNaive

theorem keepsUtc_wallClock : KeepsUtc .wallClock := by
  intro timestamp utc
  exact (Datetime.dropOffset_utcNaive _).trans (Datetime.utcNaive_of_offset utc).symm

/-- Two commands agree when they differ at most in their metadata. -/
structure Agrees (first second : EventCreate) : Prop where
  eventId : second.eventId = first.eventId
  accountId : second.accountId = first.accountId
  type : second.type = first.type
  amount : second.amount = first.amount
  currency : second.currency = first.currency
  eventTimestamp : second.eventTimestamp = first.eventTimestamp

/-- A submit has not compared its command yet. -/
def Submit.Comparing (submission : Submission) (submit : Submit) : Prop :=
  submit = .received submission ∨ submit = .inserting submission ∨ submit = .conflicted submission

/-- A submit answers by the metadata when it replays the stored event for the same metadata and
reports a conflict for other metadata. -/
structure AnswersByMetadata (storage : Storage) (settings : Settings) (process : Process) (j : Nat)
    (submission resubmission : Submission) : Prop where
  progresses : ∀ last, (uninterrupted storage settings).Leads process last →
    (∃ answer, last.submits j = .answered answer) ∨
      ∃ after, last.step storage settings (.advance j) = some after
  answered : ∀ last answer, (uninterrupted storage settings).Leads process last →
    last.submits j = .answered answer →
      (Json.SameObject submission.command.metadata resubmission.command.metadata ∧
          ∃ status, answer = .returned ((submission.row storage).withStatus status) false) ∨
        (¬ Json.SameObject submission.command.metadata resubmission.command.metadata ∧
          ∃ message, answer = eventIdConflict message)

/-- The comparison tells the metadata apart: no empty object is stored that is compared with an
absent or an empty one, and the metadata do not differ only in booleans for numbers. Where the amount
column changes the amount the metadata differ. -/
def ComparesMetadata (storage : Storage) (stored received : EventCreate) : Prop :=
  if storage.numeric stored.amount = stored.amount then
    ¬ (stored.metadata = some [] ∧ (received.metadata = none ∨ received.metadata = some [])) ∧
      ¬ Json.Confused stored.metadata received.metadata
  else ¬ Json.SameObject stored.metadata received.metadata

section Comparison

/-- The comparison of two commands that agree depends on the amount column and on the metadata. -/
theorem sameEvent_agreeing (keepsUtc : KeepsUtc storage)
    (utc : submission.command.eventTimestamp.offset = 0)
    (agrees : Agrees submission.command resubmission.command) (status : ProcessingStatus) :
    sameEvent ((submission.row storage).withStatus status) resubmission.command =
      some (decide (storage.numeric submission.command.amount = submission.command.amount) &&
        Json.pyEqOption (Json.orNone submission.command.metadata) resubmission.command.metadata) := by
  have received : resubmission.command.eventTimestamp.utcNaive =
      some submission.command.eventTimestamp.dropOffset := by
    rw [agrees.eventTimestamp, Datetime.utcNaive_of_offset utc]
  have stored : ((submission.row storage).withStatus status).eventTimestamp.utcNaive =
      some submission.command.eventTimestamp.dropOffset :=
    (keepsUtc _ utc).trans (Datetime.utcNaive_of_offset utc)
  unfold sameEvent
  rw [stored, received, agrees.accountId, agrees.type, agrees.amount, agrees.currency]
  by_cases kept : storage.numeric submission.command.amount = submission.command.amount
  · rw [if_pos ⟨rfl, rfl, kept, rfl⟩, decide_eq_true kept, Bool.true_and]
    simp only [Option.bind_eq_bind, Option.bind_some, Option.pure_def, decide_true, Bool.true_and]
    rfl
  · rw [if_neg fun fields => kept fields.2.2.1, decide_eq_false kept, Bool.false_and]

theorem comparesMetadata_iff
    (parsed : ∀ entries ∈ submission.command.metadata, (Json.obj entries).Parsed)
    (reparsed : ∀ entries ∈ resubmission.command.metadata, (Json.obj entries).Parsed) :
    ((decide (storage.numeric submission.command.amount = submission.command.amount) &&
        Json.pyEqOption (Json.orNone submission.command.metadata) resubmission.command.metadata) =
          true ↔ Json.SameObject submission.command.metadata resubmission.command.metadata) ↔
      ComparesMetadata storage submission.command resubmission.command := by
  rw [ComparesMetadata]
  by_cases kept : storage.numeric submission.command.amount = submission.command.amount
  · rw [if_pos kept, decide_eq_true kept, Bool.true_and]
    exact Json.pyEqOption_orNone_iff parsed reparsed
  · rw [if_neg kept, decide_eq_false kept, Bool.false_and]
    simp

end Comparison

section Runs
variable (keepsUtc : KeepsUtc storage)
  (utc : submission.command.eventTimestamp.offset = 0)
  (agrees : Agrees submission.command resubmission.command)

/-- The stored event is kept, and the resubmission is on its way to a comparison with it. -/
structure Process.Contends (storage : Storage) (process : Process) (j : Nat)
    (submission resubmission : Submission) : Prop where
  keeps : process.db.Keeps storage submission
  contends : (process.submits j).Contends process.db resubmission

include agrees in
theorem Database.Keeps.present (keeps : db.Keeps storage submission) : ∃ status,
    db.events.get resubmission.command.eventId =
      some ((submission.row storage).withStatus status) := by
  rw [agrees.eventId]
  exact keeps

include keepsUtc utc agrees

/-- A kept event compares with the resubmission. -/
theorem Database.Keeps.compared (keeps : db.Keeps storage submission) {row : Event}
    (present : db.events.get resubmission.command.eventId = some row) :
    sameEvent row resubmission.command ≠ none := by
  obtain ⟨status, kept⟩ := keeps.present agrees
  obtain rfl := Option.some.inj (kept.symm.trans present)
  rw [sameEvent_agreeing keepsUtc utc agrees]
  exact Option.some_ne_none _

/-- Every step without a crash keeps the resubmission on its way. -/
theorem Process.Contends.step (held : process.Contends storage j submission resubmission)
    (consistent : process.Consistent storage) (running : action.crashes = false)
    (taken : process.step storage settings action = some after) :
    after.Contends storage j submission resubmission := by
  have moves := (consistent.step taken).2
  refine ⟨held.keeps.moves moves, ?_⟩
  by_cases called : action.call = some j
  · obtain ⟨submit, step, later⟩ := Process.call_step taken called
    rw [later]
    rcases step.contends held.contends fun _ => held.keeps.compared keepsUtc utc agrees with
      ⟨contends, _⟩ | ⟨absent, _⟩
    · exact contends
    · obtain ⟨status, present⟩ := held.keeps.present agrees
      cases absent.symm.trans present
  · have uncrashed : action ≠ .crash := by
      rintro rfl
      cases running
    rw [Process.submits_step taken uncrashed called]
    exact held.contends.moves moves

end Runs

/-- The number of steps that a comparing submit has left. -/
def Submit.remaining : Submit → Nat
  | .received _ => 4
  | .inserting _ => 3
  | .conflicted _ => 2
  | .recording _ _ => 1
  | .idle | .stored _ _ | .calling _ _ | .answered _ => 0

section Progress

theorem Submission.Finds.remaining {submit : Submit} (finds : submission.Finds db submit) :
    submit.remaining ≤ 1 := by
  cases finds with
  | overflow => exact Nat.zero_le 1
  | replay | conflict => exact le_rfl

/-- A submit on its way to a comparison with a stored event has answered, or its next step brings it
closer. -/
theorem Submit.Contends.progresses (storage : Storage) {submit : Submit}
    (contends : submit.Contends db resubmission)
    (present : db.events.get resubmission.command.eventId ≠ none) :
    (∃ answer, submit = .answered answer) ∨ ∃ later next,
      submit.advance storage db = some (later, next) ∧ later.remaining < submit.remaining := by
  cases submit with
  | received own =>
      obtain rfl := contends
      refine .inr ⟨_, _, rfl, ?_⟩
      rcases own.lookup_cases db with ⟨absent, _⟩ | finds
      · exact absurd absent present
      · exact lt_of_le_of_lt finds.remaining (show (1 : Nat) < 4 by decide)
  | inserting own =>
      obtain rfl := contends
      cases committed : db.commit storage ⟨some (.insert own.event), none, []⟩ with
      | none => exact .inr ⟨.conflicted own, db, by simp [advance, committed], Nat.lt_succ_self 2⟩
      | some next => exact absurd (Database.commit_insert committed).1 present
  | conflicted own =>
      obtain ⟨rfl, _⟩ := contends
      refine .inr ⟨_, _, rfl, ?_⟩
      rcases own.relookup_cases db with ⟨absent, _⟩ | finds
      · exact absurd absent present
      · exact lt_of_le_of_lt finds.remaining (show (1 : Nat) < 2 by decide)
  | recording record answer =>
      refine .inr ⟨.answered answer, { db with audit := db.audit ++ [record] }, ?_,
        Nat.zero_lt_one⟩
      simp [advance, Database.commit, EventWrite.flush, DeliveryWrite.flush]
  | answered answer => exact .inl ⟨answer, rfl⟩
  | idle | stored | calling => exact contends.elim

end Progress

section Answered
variable (keepsUtc : KeepsUtc storage)
  (utc : submission.command.eventTimestamp.offset = 0)
  (agrees : Agrees submission.command resubmission.command)

include agrees in
/-- A submit on its way has answered or can go on. -/
theorem Process.Contends.progresses (settings : Settings)
    (held : process.Contends storage j submission resubmission) :
    (∃ answer, process.submits j = .answered answer) ∨ ∃ after,
      process.step storage settings (.advance j) = some after ∧
        (after.submits j).remaining < (process.submits j).remaining := by
  obtain ⟨status, present⟩ := held.keeps.present agrees
  rcases held.contends.progresses storage (present ▸ Option.some_ne_none _) with
    answered | ⟨later, next, advanced, closer⟩
  · exact .inl answered
  · refine .inr ⟨process.move j later next, ?_, ?_⟩
    · simp [Process.step, advanced]
    · simpa [Process.move] using closer

include keepsUtc utc agrees

/-- A submit on its way reaches its answer. -/
theorem Process.Contends.exists_answered
    (reached : (gateway storage settings).Reachable process)
    (held : process.Contends storage j submission resubmission) :
    ∃ last answer, (uninterrupted storage settings).Leads process last ∧
      last.submits j = .answered answer := by
  induction steps : (process.submits j).remaining using Nat.strong_induction_on generalizing process with
  | _ steps ih =>
      rcases held.progresses agrees settings with ⟨answer, answered⟩ | ⟨after, taken, closer⟩
      · exact ⟨process, answer, .refl, answered⟩
      · obtain ⟨last, answer, leads, answered⟩ := ih _ (steps ▸ closer)
          (reached.step (.advance j) taken)
          (held.step keepsUtc utc agrees (consistent_of_reachable reached) rfl taken) rfl
        refine ⟨last, answer, .head ⟨.advance j, ?_⟩ leads, answered⟩
        exact Machine.step_restrict.mpr ⟨rfl, taken⟩

omit keepsUtc utc in
/-- An answer is a replay when the comparison holds, and else a conflict. -/
theorem Process.Contends.answers (held : process.Contends storage j submission resubmission)
    {answer : Answer} (answered : process.submits j = .answered answer) {equal : Bool}
    (compared : ∀ status, sameEvent ((submission.row storage).withStatus status)
      resubmission.command = some equal) :
    (equal = true ∧
        ∃ status, answer = .returned ((submission.row storage).withStatus status) false) ∨
      (equal = false ∧ ∃ message, answer = eventIdConflict message) := by
  have compares := held.contends
  rw [answered] at compares
  obtain ⟨row, present, outcome⟩ := compares
  obtain ⟨status, kept⟩ := held.keeps.present agrees
  obtain rfl := Option.some.inj (kept.symm.trans present)
  rcases outcome with ⟨same, replayed⟩ | ⟨other, conflict⟩
  · exact .inl ⟨Option.some.inj ((compared status).symm.trans same), replayed⟩
  · exact .inr ⟨Option.some.inj ((compared status).symm.trans other), conflict⟩

/-- A submit on its way answers by the metadata exactly when its comparison tells them apart. -/
theorem Process.Contends.answersByMetadata_iff
    (reached : (gateway storage settings).Reachable process)
    (held : process.Contends storage j submission resubmission) {equal : Bool}
    (compared : ∀ status, sameEvent ((submission.row storage).withStatus status)
      resubmission.command = some equal) :
    AnswersByMetadata storage settings process j submission resubmission ↔
      (equal = true ↔
        Json.SameObject submission.command.metadata resubmission.command.metadata) := by
  have later (last : Process) (leads : (uninterrupted storage settings).Leads process last) :=
    (leads.persistsWithin (fun state => state.Contends storage j submission resubmission)
      (fun _ _ _ before held running taken =>
        held.step keepsUtc utc agrees (consistent_of_reachable before) running taken)
      reached held).2
  constructor
  · intro answers
    obtain ⟨last, answer, leads, answered⟩ := held.exists_answered keepsUtc utc agrees reached
    have outcome := (later last leads).answers agrees answered compared
    rcases answers.answered last answer leads answered with
      ⟨same, status, rfl⟩ | ⟨different, message, rfl⟩
    · rcases outcome with ⟨yes, _⟩ | ⟨_, _, conflict⟩
      · exact iff_of_true yes same
      · cases conflict
    · rcases outcome with ⟨_, _, replay⟩ | ⟨no, _⟩
      · cases replay
      · exact iff_of_false (Bool.eq_false_iff.mp no) different
  · intro tells
    refine ⟨fun last leads => ?_, fun last answer leads answered => ?_⟩
    · rcases (later last leads).progresses agrees settings with answered | ⟨after, taken, _⟩
      · exact .inl answered
      · exact .inr ⟨after, taken⟩
    · rcases (later last leads).answers agrees answered compared with
        ⟨yes, replay⟩ | ⟨no, conflict⟩
      · exact .inl ⟨tells.mp yes, replay⟩
      · exact .inr ⟨fun same => Bool.eq_false_iff.mp no (tells.mpr same), conflict⟩

end Answered

/-- A submit that agrees with a stored event up to the metadata is answered by the sameness of the
metadata exactly when the comparison tells them apart. -/
theorem metadata_compared_iff (keepsUtc : KeepsUtc storage) {first : Process} {i : Nat}
    {event : Event}
    (parsed : ∀ entries ∈ submission.command.metadata, (Json.obj entries).Parsed)
    (reparsed : ∀ entries ∈ resubmission.command.metadata, (Json.obj entries).Parsed)
    (utc : submission.command.eventTimestamp.offset = 0)
    (agrees : Agrees submission.command resubmission.command)
    (reached : (gateway storage settings).Reachable first)
    (stored : first.submits i = .stored submission event)
    (leads : (gateway storage settings).Leads first process)
    (comparing : (process.submits j).Comparing resubmission) :
    AnswersByMetadata storage settings process j submission resubmission ↔
      ComparesMetadata storage submission.command resubmission.command := by
  have keeps := keeps_of_stored reached stored leads
  have contends : (process.submits j).Contends process.db resubmission := by
    obtain ⟨status, present⟩ := keeps.present agrees
    rcases comparing with received | inserting | conflicted
    · rw [received]
      exact rfl
    · rw [inserting]
      exact rfl
    · rw [conflicted]
      exact ⟨rfl, present ▸ Option.some_ne_none _⟩
  have held : process.Contends storage j submission resubmission := ⟨keeps, contends⟩
  rw [held.answersByMetadata_iff keepsUtc utc agrees (leads.reachable reached)
    (sameEvent_agreeing keepsUtc utc agrees)]
  exact comparesMetadata_iff parsed reparsed

/-- The credit carries these metadata. -/
def described (metadata : Option (List (String × Json))) : EventCreate :=
  { creditX.event with metadata := metadata }

/-- One submit stores the credit and another one receives it with its own metadata. -/
theorem described_run (metadata other : Option (List (String × Json))) : ∃ first process,
    (gateway .wallClock .default).run (gateway .wallClock .default).initial
      [.arrive 0 ⟨described metadata, "trace"⟩, .advance 0, .advance 0] = some first ∧
    (gateway .wallClock .default).run first [.arrive 1 ⟨described other, "retry"⟩] = some process ∧
    first.submits 0 = .stored ⟨described metadata, "trace"⟩
      (Submission.row .wallClock ⟨described metadata, "trace"⟩) ∧
    process.submits 1 = .received ⟨described other, "retry"⟩ := by
  obtain ⟨first, ran, submits⟩ := Option.map_eq_some_iff.mp
    (show ((gateway .wallClock .default).run (gateway .wallClock .default).initial
      [.arrive 0 ⟨described metadata, "trace"⟩, .advance 0, .advance 0]).map
        (fun state => (state.submits 0, state.submits 1)) =
        some (.stored ⟨described metadata, "trace"⟩
          (Submission.row .wallClock ⟨described metadata, "trace"⟩), .idle) by rfl)
  obtain ⟨stored, idle⟩ := Prod.mk.inj submits
  refine ⟨first, first.move 1 (.received ⟨described other, "retry"⟩) first.db, ran, ?_, stored, ?_⟩
  · simp [Machine.run, gateway, Process.step, idle]
  · simp [Process.move]

theorem described_agrees (metadata other : Option (List (String × Json))) :
    Agrees (described metadata) (described other) := ⟨rfl, rfl, rfl, rfl, rfl, rfl⟩

theorem comparesMetadata_of_same {stored received : EventCreate} {entry : String × Json}
    {rest : List (String × Json)} (kept : storage.numeric stored.amount = stored.amount)
    (present : stored.metadata = some (entry :: rest))
    (same : Json.SameObject stored.metadata received.metadata) :
    ComparesMetadata storage stored received := by
  rw [ComparesMetadata, if_pos kept]
  refine ⟨?_, fun confused => confused.2 same⟩
  rw [present]
  rintro ⟨empty, _⟩
  cases empty

/-- Two objects with one entry are the same when they have the same value under the same key. -/
theorem sameObject_single {name : String} {left right : Json} (same : Json.Same left right) :
    Json.SameObject (some [(name, left)]) (some [(name, right)]) := by
  refine .obj (fun key => ?_) fun key first second found other => ?_
  · simp only [List.lookup_cons]
    cases key == name <;> rfl
  · simp only [List.lookup_cons] at found other
    cases own : key == name with
    | true =>
        simp only [own] at found other
        rwa [← Option.some.inj found, ← Option.some.inj other]
    | false => simp [own] at found

/-- A number and a float of its value are the same metadata. -/
theorem metadata_compared_number : ∃ first process,
    (gateway .wallClock .default).run (gateway .wallClock .default).initial
      [.arrive 0 ⟨described (some [("retries", .int 1)]), "trace"⟩, .advance 0, .advance 0] =
        some first ∧
    (gateway .wallClock .default).run first
      [.arrive 1 ⟨described (some [("retries", .float (.finite 1))]), "retry"⟩] = some process ∧
    AnswersByMetadata .wallClock .default process 1 ⟨described (some [("retries", .int 1)]), "trace"⟩
      ⟨described (some [("retries", .float (.finite 1))]), "retry"⟩ := by
  obtain ⟨first, process, ran, resubmitted, stored, received⟩ := described_run
    (some [("retries", .int 1)]) (some [("retries", .float (.finite 1))])
  refine ⟨first, process, ran, resubmitted, (metadata_compared_iff keepsUtc_wallClock ?_ ?_ rfl
    (described_agrees _ _) (Machine.reachable_of_run _ .initial ran) stored
    (Machine.leads_of_run _ resubmitted) (.inl received)).mpr ?_⟩
  · rintro _ ⟨⟩
    simp [Json.Parsed, Json.ParsedEntries]
  · rintro _ ⟨⟩
    simp [Json.Parsed, Json.ParsedEntries]
  · exact comparesMetadata_of_same rfl rfl (sameObject_single (.scalar rfl rfl))

/-- A resubmission with the stored empty metadata conflicts with its own event. -/
theorem empty_metadata_conflicts : ∃ first process,
    (gateway .wallClock .default).run (gateway .wallClock .default).initial
      [.arrive 0 ⟨described (some []), "trace"⟩, .advance 0, .advance 0] = some first ∧
    (gateway .wallClock .default).run first [.arrive 1 ⟨described (some []), "retry"⟩] =
      some process ∧
    ¬ AnswersByMetadata .wallClock .default process 1 ⟨described (some []), "trace"⟩
      ⟨described (some []), "retry"⟩ := by
  obtain ⟨first, process, ran, resubmitted, stored, received⟩ := described_run (some []) (some [])
  refine ⟨first, process, ran, resubmitted, fun answers => ?_⟩
  have agrees := described_agrees (some []) (some [])
  have reached := Machine.reachable_of_run _ .initial ran
  have leads := Machine.leads_of_run _ resubmitted
  have held : process.Contends .wallClock 1 ⟨described (some []), "trace"⟩
      ⟨described (some []), "retry"⟩ := ⟨keeps_of_stored reached stored leads, received ▸ rfl⟩
  have compared := (held.answersByMetadata_iff keepsUtc_wallClock rfl agrees
    (leads.reachable reached) (sameEvent_agreeing keepsUtc_wallClock rfl agrees)).mp answers
  have same : Json.SameObject (some []) (some []) :=
    (Json.alike_empty Json.booleanOrNumber_readsScalars).mpr rfl
  exact absurd (compared.mpr same) (by decide)

end EventLedger.EventGateway
