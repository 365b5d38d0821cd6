import EventLedger.EventGateway.Lifecycle
import EventLedger.EventGateway.Steps

namespace EventLedger.EventGateway
open Library Python

variable {storage : Storage} {settings : Settings} {db next : Database} {process : Process}
  {action : Action}

/-- A submit owns its event from the insert to the end of its await. -/
def Submit.owned : Submit → Option (Submission × Event)
  | .stored submission event | .calling submission event => some (submission, event)
  | _ => none

/-- A submit keeps its submission until it settles its event or answers. -/
def Submit.submission : Submit → Option Submission
  | .received submission | .inserting submission | .conflicted submission
  | .stored submission _ | .calling submission _ => some submission
  | .idle | .recording _ _ | .answered _ => none

/-- The worker holds its copies of one delivery and of its event across the await. -/
def Worker.held : Worker → Option (PendingDelivery × Event)
  | .calling delivery event _ _ _ => some (delivery, event)
  | _ => none

/-- A submit owns only its own row, which has no delivery. -/
def Submit.Owns (storage : Storage) (db : Database) (submit : Submit) : Prop :=
  ∀ submission event, submit.owned = some (submission, event) →
    event = submission.row storage ∧ db.entry submission.command.eventId = ⟨some event, none⟩

/-- The copies of the worker are current. -/
def Worker.Current (db : Database) (worker : Worker) : Prop :=
  ∀ delivery event, worker.held = some (delivery, event) →
    delivery.eventId = event.eventId ∧ db.entry event.eventId = ⟨some event, some delivery⟩

theorem Submission.Finds.owned {submission : Submission} {submit : Submit}
    (finds : submission.Finds db submit) : submit.owned = none := by
  cases finds <;> rfl

theorem Submission.lookup_owned (submission : Submission) (db : Database) :
    (submission.lookup db).owned = none := by
  rcases submission.lookup_cases db with ⟨_, inserts⟩ | finds
  · rw [inserts]
    rfl
  · exact finds.owned

theorem Submission.relookup_owned (submission : Submission) (db : Database) :
    (submission.relookup db).owned = none := by
  rcases submission.relookup_cases db with ⟨_, conflicts⟩ | finds
  · rw [conflicts]
    rfl
  · exact finds.owned

theorem Submission.rejected_owned (submission : Submission) (response : Response) :
    (submission.rejected response).owned = none := by
  unfold rejected
  split <;> rfl

/-- An event takes every other status. -/
theorem Event.assign_of_ne {event : Event} {status : ProcessingStatus}
    (changes : event.processingStatus ≠ status) :
    event.assign status = some (.assign event.eventId status) := if_neg changes

/-- A pending row takes every other status. -/
theorem Submission.row_assign (submission : Submission) {status : ProcessingStatus}
    (changes : status ≠ .pending) : (submission.row storage).assign status =
      some (.assign submission.command.eventId status) := Event.assign_of_ne changes.symm

/-- The end of the await decides the status of a pending event. -/
def settledStatus (settings : Settings) : CallOutcome → ProcessingStatus
  | .response response => if 400 ≤ response.statusCode then .failed else .applied
  | .unavailable _ => if settings.asyncFallbackEnabled then .queued else .failed
  | .raised => .pending

/-- The end of an attempt of the worker decides the status of a queued event. -/
def deliveredStatus : CallOutcome → ProcessingStatus
  | .response response => if 400 ≤ response.statusCode then .failed else .applied
  | .unavailable _ | .raised => .queued

theorem final_deliveredStatus (response : Response) :
    (deliveredStatus (.response response)).final := by
  simp only [deliveredStatus]
  split <;> rfl

/-- The end of the await settles a pending event or queues it with a new delivery. -/
theorem Submission.settle_cases {submission : Submission} {outcome : CallOutcome} {now : Rat}
    {work : Work} {after : Submit}
    (absent : db.deliveries.get submission.command.eventId = none)
    (settled : submission.settle settings (submission.row storage) db now outcome =
      some (work, after)) :
    after.owned = none ∧
      (((settledStatus settings outcome).final ∧
          work = ⟨some (.assign submission.command.eventId (settledStatus settings outcome)),
            none, []⟩) ∨
        (settledStatus settings outcome = .queued ∧
          work = ⟨some (.assign submission.command.eventId .queued),
            some (.insert (submission.delivery now)), [submission.record .eventQueued .queued
              (some (.reason "account service unavailable"))]⟩)) := by
  cases Submission.settles settled with
  | rejected response error =>
      simp only [settledStatus, if_pos error]
      exact ⟨submission.rejected_owned response,
        .inl ⟨rfl, by rw [submission.row_assign (by decide)]⟩⟩
  | applied response success =>
      simp only [settledStatus, if_neg success]
      exact ⟨rfl, .inl ⟨rfl, by rw [submission.row_assign (by decide)]⟩⟩
  | queued message enabled =>
      refine ⟨rfl, .inr ⟨if_pos enabled, ?_⟩⟩
      rw [submission.row_assign (by decide), enqueue, absent]
      rfl
  | failed message disabled =>
      simp only [settledStatus, if_neg disabled]
      exact ⟨rfl, .inl ⟨rfl, by rw [submission.row_assign (by decide)]⟩⟩

/-- The commit at the end of an await finds its rows as the submit left them. -/
theorem settle_commits {submission : Submission} {outcome : CallOutcome} {now : Rat} {work : Work}
    {after : Submit}
    (pending : db.entry submission.command.eventId = ⟨some (submission.row storage), none⟩)
    (settled : submission.settle settings (submission.row storage) db now outcome =
      some (work, after)) : db.commit storage work ≠ none := by
  obtain ⟨present, absent⟩ := Entry.mk.inj pending
  obtain ⟨_, ⟨_, rfl⟩ | ⟨_, rfl⟩⟩ := Submission.settle_cases absent settled
  · simp [Database.commit, EventWrite.flush, DeliveryWrite.flush, Table.update, present]
  · obtain ⟨deliveries, inserted⟩ := db.deliveries.insert_of_get (submission.delivery now) absent
    simp [Database.commit, EventWrite.flush, DeliveryWrite.flush, Table.update, present, inserted]

section Changed
variable {key eventId : String} {entry : String → Entry} (changed : ∀ eventId, next.entry eventId =
  if eventId = key then entry eventId else db.entry eventId)
include changed

/-- After one entry has changed, an event is that of the new entry or an old event. -/
theorem event_of_changed {event : Event} (present : next.events.get eventId = some event) :
    eventId = key ∧ (entry eventId).event = some event ∨
      eventId ≠ key ∧ db.events.get eventId = some event := by
  have moved := congrArg Entry.event (changed eventId)
  by_cases own : eventId = key
  · rw [if_pos own] at moved
    exact .inl ⟨own, moved.symm.trans present⟩
  · rw [if_neg own] at moved
    exact .inr ⟨own, moved.symm.trans present⟩

/-- After one entry has changed, a delivery is that of the new entry or an old delivery. -/
theorem delivery_of_changed {delivery : PendingDelivery}
    (queued : next.deliveries.get eventId = some delivery) :
    eventId = key ∧ (entry eventId).delivery = some delivery ∨
      eventId ≠ key ∧ db.deliveries.get eventId = some delivery := by
  have moved := congrArg Entry.delivery (changed eventId)
  by_cases own : eventId = key
  · rw [if_pos own] at moved
    exact .inl ⟨own, moved.symm.trans queued⟩
  · rw [if_neg own] at moved
    exact .inr ⟨own, moved.symm.trans queued⟩

end Changed

/-- A step of a submit moves no entry, fills a new entry or moves the entry that it owns. -/
inductive Submit.Effect (storage : Storage) (settings : Settings) (db next : Database) (i : Nat)
    (action : Action) (before after : Submit) : Prop where
  | silent (kept : after.owned = before.owned ∨
        after.owned = none ∧ ∃ now, action = .resume i .raised now)
      (same : ∀ eventId, next.entry eventId = db.entry eventId)
  | insert (submission : Submission) (fresh : db.events.get submission.command.eventId = none)
      (received : before.submission = some submission) (earlier : before.owned = none)
      (later : after.owned = some (submission, submission.row storage))
      (changed : ∀ eventId, next.entry eventId =
        if eventId = submission.command.eventId then
          ⟨some (submission.row storage), db.deliveries.get eventId⟩
        else db.entry eventId)
  | settle (submission : Submission) (entry : Entry)
      (earlier : before.owned = some (submission, submission.row storage))
      (later : after.owned = none)
      (pending : db.entry submission.command.eventId = ⟨some (submission.row storage), none⟩)
      (move : Entry.Move storage ⟨some (submission.row storage), none⟩ entry)
      (status : ∃ outcome now, action = .resume i outcome now ∧
        entry.event = some ((submission.row storage).withStatus (settledStatus settings outcome)))
      (payload : ∀ delivery, entry.delivery = some delivery →
        delivery.payloadJson = submission.payload)
      (changed : ∀ eventId, next.entry eventId =
        if eventId = submission.command.eventId then entry else db.entry eventId)

/-- The end of an await moves the entry of a pending event. -/
theorem settle_effect {submission : Submission} {outcome : CallOutcome} {now : Rat} {work : Work}
    {event : Event} {after : Submit} {i : Nat} (same : event = submission.row storage)
    (pending : db.entry submission.command.eventId = ⟨some event, none⟩)
    (settled : submission.settle settings event db now outcome = some (work, after))
    (committed : db.commit storage work = some next) :
    Submit.Effect storage settings db next i (.resume i outcome now) (.calling submission event)
      after := by
  subst same
  obtain ⟨present, absent⟩ := Entry.mk.inj pending
  obtain ⟨later, ⟨final, rfl⟩ | ⟨queued, rfl⟩⟩ := Submission.settle_cases absent settled
  · refine .settle submission _ rfl later pending (.settle submission _ final)
      ⟨outcome, now, rfl, rfl⟩ (fun _ queued => by cases queued) fun eventId => ?_
    rw [Database.commit_settle present committed]
    by_cases own : eventId = submission.command.eventId
    · rw [if_pos own, if_pos own, own, absent]
    · rw [if_neg own, if_neg own]
  · exact .settle submission _ rfl later pending (.queue submission now)
      ⟨outcome, now, rfl, by rw [queued]⟩
      (fun _ same => Option.some.inj same ▸ rfl) fun eventId => Database.commit_queue present rfl committed eventId

theorem Submit.Step.effect {i : Nat} {before after : Submit}
    (step : Submit.Step storage settings db i action before after next)
    (owns : before.Owns storage db) :
    Submit.Effect storage settings db next i action before after := by
  cases step with
  | arrive => exact .silent (.inl rfl) fun _ => rfl
  | lookup submission => exact .silent (.inl (submission.lookup_owned db)) fun _ => rfl
  | insert submission committed =>
      obtain ⟨fresh, changed⟩ := Database.commit_insert committed
      refine .insert submission fresh rfl rfl rfl fun eventId => ?_
      simp only [changed, eq_comm]
  | rollback => exact .silent (.inl rfl) fun _ => rfl
  | relookup submission => exact .silent (.inl (submission.relookup_owned db)) fun _ => rfl
  | call submission event committed => exact .silent (.inl rfl) (Database.commit_records committed)
  | settle submission event outcome now settled committed =>
      obtain ⟨same, pending⟩ := owns submission event rfl
      exact settle_effect same pending settled committed
  | stale submission event outcome now settled violated =>
      obtain ⟨rfl, pending⟩ := owns submission event rfl
      exact absurd violated (settle_commits pending settled)
  | raise submission event outcome now escaped =>
      obtain rfl := Submission.raised_of_settle escaped
      exact .silent (.inr ⟨rfl, now, rfl⟩) fun _ => rfl
  | record _ _ committed => exact .silent (.inl rfl) (Database.commit_records committed)

/-- A step of the worker reads one entry, or moves the entry that it holds, or moves nothing. -/
inductive Worker.Effect (storage : Storage) (db next : Database) (action : Action)
    (before after : Worker) : Prop where
  | silent (kept : after.held = none) (same : ∀ eventId, next.entry eventId = db.entry eventId)
  | call (delivery : PendingDelivery) (event : Event)
      (later : after.held = some (delivery, event))
      (current : delivery.eventId = event.eventId ∧
        db.entry event.eventId = ⟨some event, some delivery⟩)
      (same : ∀ eventId, next.entry eventId = db.entry eventId)
  | deliver (delivery : PendingDelivery) (event : Event) (entry : Entry)
      (earlier : before.held = some (delivery, event)) (later : after.held = none)
      (current : db.entry event.eventId = ⟨some event, some delivery⟩)
      (move : Entry.Move storage ⟨some event, some delivery⟩ entry)
      (status : ∃ outcome now draw, action = .deliver outcome now draw ∧
        entry.event = some (event.withStatus (deliveredStatus outcome)))
      (payload : ∀ later, entry.delivery = some later → later.payloadJson = delivery.payloadJson)
      (changed : ∀ eventId, next.entry eventId =
        if eventId = event.eventId then entry else db.entry eventId)

/-- The end of an attempt reschedules the delivery or settles the event and deletes the delivery. -/
theorem deliver_cases {delivery : PendingDelivery} {event : Event} {traceId : String} {now : Rat}
    {draw : Draw} {outcome : CallOutcome} {work : Work} {done : Bool}
    (queued : event.processingStatus = .queued)
    (delivered : deliver settings delivery event traceId now draw outcome = some (work, done)) :
    (deliveredStatus outcome = .queued ∧
        ∃ attemptCount lastError nextAttemptAt records, work =
          ⟨none, some (.reschedule delivery.eventId attemptCount lastError nextAttemptAt), records⟩) ∨
      ((deliveredStatus outcome).final ∧ ∃ records, work =
        ⟨some (.assign event.eventId (deliveredStatus outcome)), some (.delete delivery.eventId),
          records⟩) := by
  cases delivered_of_deliver delivered with
  | rescheduled => exact .inl ⟨rfl, _, _, _, _, rfl⟩
  | rejected response error =>
      simp only [deliveredStatus, if_pos error]
      exact .inr ⟨rfl, _, by rw [Event.assign_of_ne (by rw [queued]; decide)]⟩
  | applied response success =>
      simp only [deliveredStatus, if_neg success]
      exact .inr ⟨rfl, _, by rw [Event.assign_of_ne (by rw [queued]; decide)]⟩

/-- The end of an attempt moves the entry of a queued event. -/
theorem deliver_effect {delivery : PendingDelivery} {event : Event} {traceId : String} {now : Rat}
    {draw : Draw} {outcome : CallOutcome} {work : Work} {done : Bool} {remaining : List String}
    {processed : Nat} {after : Worker} (idle : after.held = none)
    (own : delivery.eventId = event.eventId)
    (current : db.entry event.eventId = ⟨some event, some delivery⟩)
    (queued : event.processingStatus = .queued)
    (delivered : deliver settings delivery event traceId now draw outcome = some (work, done))
    (committed : db.commit storage work = some next) :
    Worker.Effect storage db next (.deliver outcome now draw)
      (.calling delivery event traceId remaining processed) after := by
  obtain ⟨stored, waiting⟩ := Entry.mk.inj current
  rcases deliver_cases queued delivered with
    ⟨status, attemptCount, lastError, nextAttemptAt, records, rfl⟩ | ⟨final, records, rfl⟩
  · refine .deliver delivery event _ rfl idle current
      (.reschedule event delivery attemptCount lastError nextAttemptAt queued)
      ⟨outcome, now, draw, rfl, by rw [status, ← queued]; rfl⟩
      (fun _ same => Option.some.inj same ▸ rfl) fun eventId => ?_
    rw [own] at committed
    rw [Database.commit_reschedule waiting committed]
    by_cases same : eventId = event.eventId
    · rw [if_pos same, if_pos same, same, stored]
    · rw [if_neg same, if_neg same]
  · rw [own] at committed
    exact .deliver delivery event _ rfl idle current (.dequeue event delivery _ queued final)
      ⟨outcome, now, draw, rfl, rfl⟩ (fun _ queued => by cases queued)
      fun eventId => Database.commit_dequeue stored committed eventId

theorem Worker.Step.effect {before after : Worker}
    (step : Worker.Step storage settings db action before after next)
    (valid : ∀ eventId, (db.entry eventId).Valid)
    (current : before.Current db) :
    Worker.Effect storage db next action before after := by
  cases step with
  | poll => exact .silent rfl fun _ => rfl
  | absent => exact .silent rfl fun _ => rfl
  | orphan fresh eventId remaining processed delivery present missing committed =>
      have empty := congrArg Entry.delivery ((valid eventId).absent missing)
      exact absurd (present.symm.trans empty) (by simp)
  | call fresh eventId remaining processed delivery event queued stored =>
      have deliveryId : delivery.eventId = eventId := Table.key_of_get queued
      have eventKey : event.eventId = eventId := Table.key_of_get stored
      subst eventKey
      exact .call delivery event rfl ⟨deliveryId, by rw [Database.entry, queued, stored]⟩ fun _ => rfl
  | deliver delivery event traceId remaining processed outcome now draw delivered committed =>
      obtain ⟨own, entry⟩ := current delivery event rfl
      have queued := Entry.Valid.queued (entry ▸ valid event.eventId)
      exact deliver_effect rfl own entry queued delivered committed
  | stale => exact .silent rfl fun _ => rfl
  | raise => exact .silent rfl fun _ => rfl
  | rest => exact .silent rfl fun _ => rfl

/-- The entries are valid, each submit owns a pending entry alone, and the worker's copies are
current. -/
structure Process.Consistent (storage : Storage) (process : Process) : Prop where
  valid : ∀ eventId, (process.db.entry eventId).Valid
  owns : ∀ i submission event, (process.submits i).owned = some (submission, event) →
    event = submission.row storage ∧
      process.db.entry submission.command.eventId = ⟨some event, none⟩
  distinct : ∀ i j first second, (process.submits i).owned = some first →
    (process.submits j).owned = some second →
    first.1.command.eventId = second.1.command.eventId → i = j
  current : ∀ delivery event, process.worker.held = some (delivery, event) →
    delivery.eventId = event.eventId ∧
      process.db.entry event.eventId = ⟨some event, some delivery⟩

theorem Process.consistent_initial (storage : Storage) (settings : Settings) :
    (gateway storage settings).initial.Consistent storage where
  valid _ := Entry.valid_empty
  owns _ _ _ owned := by cases owned
  distinct _ _ _ _ owned := by cases owned
  current _ _ held := by cases held

/-- A step of a submit moves at most one entry. -/
theorem Submit.Effect.moves {i : Nat} {before after : Submit}
    (effect : Submit.Effect storage settings db next i action before after)
    (valid : ∀ eventId, (db.entry eventId).Valid) : db.Moves storage next := by
  cases effect with
  | silent _ same => exact .inl same
  | insert submission fresh _ _ _ changed =>
      refine .inr ⟨submission.command.eventId, ?_, fun other different => ?_⟩
      · have empty := (valid submission.command.eventId).absent fresh
        have absent := congrArg Entry.delivery empty
        rw [changed, if_pos rfl, empty]
        simp only [Database.entry] at absent
        rw [absent]
        exact .insert submission
      · rw [changed, if_neg different]
  | settle submission entry _ _ pending move _ _ changed =>
      refine .inr ⟨submission.command.eventId, ?_, fun other different => ?_⟩
      · rwa [changed, if_pos rfl, pending]
      · rw [changed, if_neg different]

/-- A step of the worker moves at most one entry. -/
theorem Worker.Effect.moves {before after : Worker}
    (effect : Worker.Effect storage db next action before after) : db.Moves storage next := by
  cases effect with
  | silent _ same | call _ _ _ _ same => exact .inl same
  | deliver delivery event entry _ _ current move _ _ changed =>
      refine .inr ⟨event.eventId, ?_, fun other different => ?_⟩
      · rwa [changed, if_pos rfl, current]
      · rw [changed, if_neg different]

/-- Valid entries stay valid when one of them moves. -/
theorem Database.Moves.valid (moves : db.Moves storage next)
    (valid : ∀ eventId, (db.entry eventId).Valid) (eventId : String) :
    (next.entry eventId).Valid := by
  rcases moves with same | ⟨moved, move, others⟩
  · rw [same]
    exact valid eventId
  · by_cases own : eventId = moved
    · exact own ▸ move.valid
    · rw [others eventId own]
      exact valid eventId

/-- Each submit that owns an event owned it before, or has just stored it. -/
theorem owned_of_update {submits : Nat → Submit} {i j : Nat} {submit : Submit}
    {held : Submission × Event}
    (owned : (Function.update submits i submit j).owned = some held) :
    (j = i ∧ submit.owned = some held) ∨ (j ≠ i ∧ (submits j).owned = some held) := by
  by_cases own : j = i
  · subst own
    rw [Function.update_self] at owned
    exact .inl ⟨rfl, owned⟩
  · rw [Function.update_of_ne own] at owned
    exact .inr ⟨own, owned⟩

/-- A process that holds nothing new stays consistent when the entries that it holds stay. -/
theorem Process.Consistent.frame {after : Process} (consistent : process.Consistent storage)
    (valid : ∀ eventId, (after.db.entry eventId).Valid)
    (owned : ∀ j held, (after.submits j).owned = some held →
      (process.submits j).owned = some held ∧
        after.db.entry held.1.command.eventId = process.db.entry held.1.command.eventId)
    (current : ∀ held, after.worker.held = some held → process.worker.held = some held ∧
      after.db.entry held.2.eventId = process.db.entry held.2.eventId) :
    after.Consistent storage := by
  refine ⟨valid, fun j submission event later => ?_,
    fun j k first second firstOwned secondOwned => ?_, fun delivery event later => ?_⟩
  · obtain ⟨old, same⟩ := owned j _ later
    rw [same]
    exact consistent.owns j submission event old
  · exact consistent.distinct j k first second (owned j first firstOwned).1
      (owned k second secondOwned).1
  · obtain ⟨old, same⟩ := current _ later
    rw [same]
    exact consistent.current delivery event old

/-- A submit that stores a new event keeps the process consistent. -/
theorem Process.Consistent.insert {after : Process} {i : Nat} {submit : Submit}
    {submission : Submission} (consistent : process.Consistent storage)
    (valid : ∀ eventId, (after.db.entry eventId).Valid)
    (fresh : process.db.events.get submission.command.eventId = none)
    (later : submit.owned = some (submission, submission.row storage))
    (stored : after.db.entry submission.command.eventId = ⟨some (submission.row storage), none⟩)
    (others : ∀ eventId, eventId ≠ submission.command.eventId →
      after.db.entry eventId = process.db.entry eventId)
    (submits : after.submits = Function.update process.submits i submit)
    (worker : after.worker = process.worker) : after.Consistent storage := by
  have different {eventId : String} {event : Event} {delivery : Option PendingDelivery}
      (held : process.db.entry eventId = ⟨some event, delivery⟩) :
      eventId ≠ submission.command.eventId := by
    rintro rfl
    exact absurd (fresh.symm.trans (congrArg Entry.event held)) (by simp)
  refine ⟨valid, fun j held event owned => ?_,
    fun j k first second firstOwned secondOwned same => ?_, fun delivery event held => ?_⟩
  · rcases owned_of_update (submits ▸ owned) with ⟨rfl, new⟩ | ⟨_, old⟩
    · rw [later] at new
      obtain ⟨rfl, rfl⟩ := Prod.mk.inj (Option.some.inj new)
      exact ⟨rfl, stored⟩
    · obtain ⟨row, present⟩ := consistent.owns j held event old
      exact ⟨row, (others _ (different present)).trans present⟩
  · have other {k : Nat} {held : Submission × Event}
        (owned : (process.submits k).owned = some held) :
        held.1.command.eventId ≠ submission.command.eventId :=
      different (consistent.owns k held.1 held.2 owned).2
    rcases owned_of_update (submits ▸ firstOwned) with ⟨rfl, firstNew⟩ | ⟨_, firstOld⟩ <;>
      rcases owned_of_update (submits ▸ secondOwned) with ⟨rfl, secondNew⟩ | ⟨_, secondOld⟩
    · rfl
    · rw [later] at firstNew
      rw [← Option.some.inj firstNew] at same
      exact absurd same.symm (other secondOld)
    · rw [later] at secondNew
      rw [← Option.some.inj secondNew] at same
      exact absurd same (other firstOld)
    · exact consistent.distinct j k first second firstOld secondOld same
  · obtain ⟨own, present⟩ := consistent.current delivery event (worker ▸ held)
    exact ⟨own, (others _ (different present)).trans present⟩

/-- A step of one submit keeps the process consistent. -/
theorem Process.Consistent.submit {after : Process} {i : Nat} {submit : Submit}
    (consistent : process.Consistent storage)
    (effect : Submit.Effect storage settings process.db after.db i action (process.submits i) submit)
    (submits : after.submits = Function.update process.submits i submit)
    (worker : after.worker = process.worker) : after.Consistent storage := by
  have valid := (effect.moves consistent.valid).valid consistent.valid
  cases effect with
  | silent kept same =>
      refine consistent.frame valid (fun j held later => ⟨?_, same _⟩)
        fun held current => ⟨worker ▸ current, same _⟩
      rcases owned_of_update (submits ▸ later) with ⟨rfl, new⟩ | ⟨_, old⟩
      · rcases kept with kept | ⟨kept, _⟩
        · rw [← kept, new]
        · rw [kept] at new
          cases new
      · exact old
  | insert submission fresh _ _ later changed =>
      refine consistent.insert valid fresh later ?_
        (fun eventId different => by rw [changed, if_neg different]) submits worker
      have absent := congrArg Entry.delivery ((consistent.valid _).absent fresh)
      simp only [Database.entry] at absent
      rw [changed, if_pos rfl, absent]
  | settle submission entry earlier later pending _ _ _ changed =>
      have kept {eventId : String} (different : eventId ≠ submission.command.eventId) :
          after.db.entry eventId = process.db.entry eventId := by rw [changed, if_neg different]
      refine consistent.frame valid (fun j held owned => ?_) fun held later => ?_
      · rcases owned_of_update (submits ▸ owned) with ⟨rfl, new⟩ | ⟨other, old⟩
        · rw [later] at new
          cases new
        · exact ⟨old, kept fun same => other (consistent.distinct j i _ _ old earlier same)⟩
      · have old : process.worker.held = some held := worker ▸ later
        refine ⟨old, kept fun same => ?_⟩
        have current := (consistent.current held.1 held.2 old).2
        rw [same, pending] at current
        exact absurd (congrArg Entry.delivery current) (by simp)

/-- A step of the worker keeps the process consistent. -/
theorem Process.Consistent.work {after : Process} (consistent : process.Consistent storage)
    (effect : Worker.Effect storage process.db after.db action process.worker after.worker)
    (submits : after.submits = process.submits) : after.Consistent storage := by
  have valid := effect.moves.valid consistent.valid
  cases effect with
  | silent kept same =>
      refine consistent.frame valid (fun j held owned => ⟨submits ▸ owned, same _⟩)
        fun held later => ?_
      rw [kept] at later
      cases later
  | call delivery event later current same =>
      refine ⟨valid, fun i submission event owned => ?_, ?_, fun other event held => ?_⟩
      · rw [same]
        exact consistent.owns i submission event (submits ▸ owned)
      · rw [submits]
        exact consistent.distinct
      · rw [later] at held
        obtain ⟨rfl, rfl⟩ := Prod.mk.inj (Option.some.inj held)
        rw [same]
        exact current
  | deliver delivery event entry earlier later current _ _ _ changed =>
      refine consistent.frame valid (fun j held owned => ?_) fun held now => ?_
      · have old : (process.submits j).owned = some held := submits ▸ owned
        have pending := (consistent.owns j held.1 held.2 old).2
        have different : held.1.command.eventId ≠ event.eventId := by
          intro same
          rw [same, current] at pending
          cases pending
        exact ⟨old, by rw [changed, if_neg different]⟩
      · rw [later] at now
        cases now

/-- A crash keeps the process consistent. -/
theorem Process.Consistent.crash (consistent : process.Consistent storage) :
    (Process.crashed process.db).Consistent storage where
  valid := consistent.valid
  owns _ _ _ owned := by cases owned
  distinct _ _ _ _ owned := by cases owned
  current _ _ held := by cases held

/-- Every step keeps the process consistent and moves at most one entry. -/
theorem Process.Consistent.step {after : Process} (consistent : process.Consistent storage)
    (taken : process.step storage settings action = some after) :
    after.Consistent storage ∧ process.db.Moves storage after.db := by
  rcases Process.step_cases taken with
    ⟨i, submit, step, submits, worker⟩ | ⟨step, submits⟩ | ⟨_, rfl⟩
  · have effect := step.effect (consistent.owns i)
    exact ⟨consistent.submit effect submits worker, effect.moves consistent.valid⟩
  · have effect := step.effect consistent.valid consistent.current
    exact ⟨consistent.work effect submits, effect.moves⟩
  · exact ⟨consistent.crash, .inl fun _ => rfl⟩

/-- Every reachable process is consistent. -/
theorem consistent_of_reachable (reached : (gateway storage settings).Reachable process) :
    process.Consistent storage :=
  reached.invariant _ (Process.consistent_initial storage settings)
    fun _ _ _ _ consistent taken => (consistent.step taken).1

end EventLedger.EventGateway
