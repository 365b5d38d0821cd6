import EventLedger.EventGateway.Attempts
import EventLedger.EventGateway.Outcomes
import EventLedger.EventGateway.StatusTransitions
import EventLedger.Library.Lists
import EventLedger.Library.Trace

namespace EventLedger.EventGateway
open Library Python

variable {storage : Storage} {settings : Settings} {db next : Database} {process after : Process}
  {eventId : String} {outcome : CallOutcome} {now : Rat}

/-- An action that ends a call comes with the answers to the attempts of the call. -/
structure Attempted where
  action : Action
  answers : List AttemptOutcome

def Action.ended : Action → Option CallOutcome
  | .resume _ outcome _ | .deliver outcome _ _ => some outcome
  | .arrive _ _ | .advance _ | .poll _ | .take _ | .rest | .crash => none

/-- The gateway takes its own steps, and the answers are observed. -/
def answering (storage : Storage) (settings : Settings) : Machine Process Attempted where
  initial := (gateway storage settings).initial
  step process attempted := process.step storage settings attempted.action

/-- The client turns the answers into the outcome of the call. -/
def Attempted.Called (settings : Settings) (attempted : Attempted) : Prop :=
  ∀ outcome, attempted.action.ended = some outcome → ∃ breaker now,
    (ClientRequest.start settings breaker now).Ends settings attempted.answers outcome

/-- A call delivers an event for its submit, or later from the queue. -/
structure DeliveryCall where
  queued : Bool
  answers : List AttemptOutcome

/-- This action ends a call for the event. -/
def Process.delivers (process : Process) (eventId : String) : Action → Option Bool
  | .resume i _ _ => (process.submits i).owned.bind fun held =>
      if held.1.command.eventId = eventId then some false else none
  | .deliver _ _ _ => process.worker.held.bind fun held =>
      if held.2.eventId = eventId then some true else none
  | .arrive _ _ | .advance _ | .poll _ | .take _ | .rest | .crash => none

/-- The calls of an event are its synchronous call and all later calls of the worker. -/
def calls (eventId : String) (trace : Trace Process Attempted) : List DeliveryCall :=
  trace.filterMap fun transition =>
    (transition.before.delivers eventId transition.action.action).map fun queued =>
      ⟨queued, transition.action.answers⟩

/-- The last answer is a success. -/
def DeliveryCall.Accepted (call : DeliveryCall) : Prop :=
  ∃ response : Response, call.answers.getLast? = some (.response response) ∧
    200 ≤ response.statusCode ∧ response.statusCode < 300

/-- The last answer is a business error. -/
def DeliveryCall.Rejected (call : DeliveryCall) : Prop :=
  ∃ response : Response, call.answers.getLast? = some (.response response) ∧
    400 ≤ response.statusCode ∧ response.statusCode < 500

/-- An event is deliverable while it is queued with its delivery. -/
def Database.Deliverable (db : Database) (eventId : String) : Prop :=
  ∃ event delivery, db.entry eventId = ⟨some event, some delivery⟩ ∧
    event.processingStatus = .queued

/-- Only a success applies an event, only a business error fails it, and every other end of a call
leaves it deliverable. -/
structure Classified (db : Database) (eventId : String) (calls : List DeliveryCall) : Prop where
  applied : ∀ event, db.events.get eventId = some event → event.processingStatus = .applied →
    ∃ call, calls.getLast? = some call ∧ call.Accepted
  failed : ∀ event, db.events.get eventId = some event → event.processingStatus = .failed →
    ∃ call, calls.getLast? = some call ∧ call.Rejected
  deliverable : ∀ call, calls.getLast? = some call → ¬ call.Accepted → ¬ call.Rejected →
    db.Deliverable eventId

/-- The documented answers are successes, business errors and failures that the client retries, and
the worker survives every other exception. -/
def AttemptOutcome.Documented (queued : Bool) : AttemptOutcome → Prop
  | .response answer =>
      (200 ≤ answer.statusCode ∧ answer.statusCode < 300) ∨
        (400 ≤ answer.statusCode ∧ answer.statusCode < 500) ∨
        ClientRequest.transient answer.statusCode
  | .timeout _ | .connectError _ => True
  | .raised => queued

section Ends

/-- The end of an await leaves the event of the submit in the decided status. -/
theorem Submit.Step.resumed {i j : Nat} {before later : Submit}
    (step : Submit.Step storage settings db i (.resume j outcome now) before later next)
    (owns : before.Owns storage db) :
    ∃ submission, before.owned = some (submission, submission.row storage) ∧ later.owned = none ∧
      ∀ eventId, next.events.get eventId = if eventId = submission.command.eventId then
        some ((submission.row storage).withStatus (settledStatus settings outcome))
      else db.events.get eventId := by
  cases step with
  | settle submission event _ _ settled committed =>
      obtain ⟨rfl, pending⟩ := owns submission event rfl
      obtain ⟨present, absent⟩ := Entry.mk.inj pending
      obtain ⟨ended, ⟨_, rfl⟩ | ⟨queued, rfl⟩⟩ := Submission.settle_cases absent settled
      · refine ⟨submission, rfl, ended, fun eventId => ?_⟩
        have entry := congrArg Entry.event (Database.commit_settle present committed eventId)
        rw [apply_ite Entry.event] at entry
        exact entry
      · refine ⟨submission, rfl, ended, fun eventId => ?_⟩
        have entry := congrArg Entry.event (Database.commit_queue present rfl committed eventId)
        rw [apply_ite Entry.event, ← queued] at entry
        exact entry
  | stale submission event _ _ settled violated =>
      obtain ⟨rfl, pending⟩ := owns submission event rfl
      exact absurd violated (settle_commits pending settled)
  | raise submission event _ _ escaped =>
      obtain ⟨rfl, pending⟩ := owns submission event rfl
      obtain ⟨present, _⟩ := Entry.mk.inj pending
      obtain rfl := Submission.raised_of_settle escaped
      refine ⟨submission, rfl, rfl, fun eventId => ?_⟩
      split
      · next own =>
          rw [own, present]
          rfl
      · rfl

/-- The commit at the end of an attempt finds its rows as the worker read them. -/
theorem deliver_commits {delivery : PendingDelivery} {event : Event} {traceId : String}
    {draw : Draw} {work : Work} {done : Bool} (own : delivery.eventId = event.eventId)
    (current : db.entry event.eventId = ⟨some event, some delivery⟩)
    (queued : event.processingStatus = .queued)
    (delivered : deliver settings delivery event traceId now draw outcome = some (work, done)) :
    db.commit storage work ≠ none := by
  obtain ⟨stored, waiting⟩ := Entry.mk.inj current
  rcases deliver_cases queued delivered with ⟨_, _, _, _, _, rfl⟩ | ⟨_, _, rfl⟩
  · simp [Database.commit, EventWrite.flush, DeliveryWrite.flush, Table.update, own, waiting]
  · simp [Database.commit, EventWrite.flush, DeliveryWrite.flush, Table.update, stored]

/-- The end of an attempt leaves the event of the worker in the decided status. -/
theorem Worker.Step.delivered {draw : Draw} {before later : Worker}
    (step : Worker.Step storage settings db (.deliver outcome now draw) before later next)
    (valid : ∀ eventId, (db.entry eventId).Valid)
    (current : before.Current db) :
    ∃ delivery event, before.held = some (delivery, event) ∧
      event.processingStatus = .queued ∧ db.events.get event.eventId = some event ∧
      ∀ eventId, next.events.get eventId = if eventId = event.eventId then
        some (event.withStatus (deliveredStatus outcome)) else db.events.get eventId := by
  cases step with
  | deliver delivery event traceId remaining processed _ _ _ delivered committed =>
      obtain ⟨own, entry⟩ := current delivery event rfl
      have queued := Entry.Valid.queued (entry ▸ valid event.eventId)
      obtain ⟨stored, waiting⟩ := Entry.mk.inj entry
      refine ⟨delivery, event, rfl, queued, stored, fun eventId => ?_⟩
      rcases deliver_cases queued delivered with ⟨status, _, _, _, _, rfl⟩ | ⟨_, _, rfl⟩
      · obtain ⟨events, _⟩ := Database.commit_eq_some committed
        rw [← Option.some.inj events, status, ← queued]
        split
        · next same =>
            rw [same, stored]
            rfl
        · rfl
      · rw [own] at committed
        have moved := congrArg Entry.event (Database.commit_dequeue stored committed eventId)
        rw [apply_ite Entry.event] at moved
        exact moved
  | stale delivery event traceId remaining processed _ _ _ delivered violated =>
      obtain ⟨own, entry⟩ := current delivery event rfl
      have queued := Entry.Valid.queued (entry ▸ valid event.eventId)
      exact absurd violated (deliver_commits own entry queued delivered)
  | raise delivery event traceId remaining processed _ _ _ escaped =>
      obtain ⟨own, entry⟩ := current delivery event rfl
      have queued := Entry.Valid.queued (entry ▸ valid event.eventId)
      obtain ⟨stored, _⟩ := Entry.mk.inj entry
      obtain rfl := raised_of_deliver escaped
      refine ⟨delivery, event, rfl, queued, stored, fun eventId => ?_⟩
      rw [show deliveredStatus .raised = event.processingStatus from queued.symm]
      split
      · next same =>
          rw [same, stored]
          rfl
      · rfl

end Ends

section Told
variable {trace : Trace Process Attempted}

/-- The calls of a run are those of its earlier part and the one that the last step ends. -/
theorem calls_append (eventId : String) (trace : Trace Process Attempted)
    (transition : Transition Process Attempted) :
    calls eventId (trace ++ [transition]) = calls eventId trace ++
      ((transition.before.delivers eventId transition.action.action).map fun queued =>
        DeliveryCall.mk queued transition.action.answers).toList :=
  filterMap_concat _ _ _

/-- The status of an event after a call depends on the outcome that the answers report. -/
def DeliveryCall.Leaves (settings : Settings) (call : DeliveryCall)
    (status : ProcessingStatus) : Prop :=
  ∃ outcome, Reports call.answers outcome ∧
    status = if call.queued then deliveredStatus outcome else settledStatus settings outcome

/-- The calls of an event tell its status. -/
structure Told (settings : Settings) (process : Process) (eventId : String)
    (calls : List DeliveryCall) : Prop where
  pending : calls = [] → ∀ event, process.db.events.get eventId = some event →
    event.processingStatus = .pending
  last : ∀ earlier call, calls = earlier ++ [call] → ∃ event,
    process.db.events.get eventId = some event ∧ call.Leaves settings event.processingStatus ∧
      ∀ other ∈ earlier, other.Leaves settings .queued
  owned : ∀ i submission event, (process.submits i).owned = some (submission, event) →
    submission.command.eventId = eventId → calls = []

/-- A decided status belongs to the end of a call. -/
theorem Decides.delivers {action : Action} {status : ProcessingStatus}
    (decides : Decides settings process eventId action status) :
    ∃ queued, process.delivers eventId action = some queued := by
  cases decides with
  | submit i submission event outcome now owned own =>
      exact ⟨false, by simp [Process.delivers, owned, own]⟩
  | worker delivery event outcome now draw held own =>
      exact ⟨true, by simp [Process.delivers, held, own]⟩

/-- A step without the end of a call keeps the status of every stored event and stores new events as
pending. -/
theorem Process.Consistent.undelivered {action : Action} (consistent : process.Consistent storage)
    (taken : process.step storage settings action = some after)
    (other : process.delivers eventId action = none) :
    (∀ event, process.db.events.get eventId = some event → ∃ later,
        after.db.events.get eventId = some later ∧
          later.processingStatus = event.processingStatus) ∧
      ∀ event, process.db.events.get eventId = none →
        after.db.events.get eventId = some event → event.processingStatus = .pending := by
  have decided {event : Event} (present : after.db.events.get eventId = some event) :
      (∃ earlier, process.db.events.get eventId = some earlier ∧
          earlier.processingStatus = event.processingStatus) ∨
        event.processingStatus = .pending := by
    rcases consistent.decides taken present with old | pending | decides
    · exact .inl old
    · exact .inr pending
    · obtain ⟨queued, delivers⟩ := decides.delivers
      rw [other] at delivers
      cases delivers
  constructor
  · intro event present
    obtain ⟨later, found, _, same | changed⟩ := (consistent.step taken).2.advances present
    · exact ⟨later, found, same⟩
    · refine ⟨later, found, ?_⟩
      rcases decided found with ⟨earlier, old, same⟩ | pending
      · obtain rfl := Option.some.inj (present.symm.trans old)
        exact same.symm
      · rw [pending] at changed
        cases status : event.processingStatus <;> rw [status] at changed <;> cases changed
  · intro event absent present
    rcases decided present with ⟨earlier, old, _⟩ | pending
    · rw [absent] at old
      cases old
    · exact pending

/-- A submit owns an event that it owned before or that was new. -/
theorem Process.Consistent.owner {action : Action} (consistent : process.Consistent storage)
    (taken : process.step storage settings action = some after) {j : Nat} {submission : Submission}
    {event : Event} (owned : (after.submits j).owned = some (submission, event)) :
    (process.submits j).owned = some (submission, event) ∨
      process.db.events.get submission.command.eventId = none := by
  rcases Process.step_cases taken with
    ⟨i, submit, step, submits, _⟩ | ⟨_, submits⟩ | ⟨_, rfl⟩
  · rcases owned_of_update (submits ▸ owned) with ⟨rfl, new⟩ | ⟨_, old⟩
    · cases step.effect (consistent.owns j) with
      | silent kept =>
          rcases kept with kept | ⟨kept, _⟩
          · exact .inl (kept ▸ new)
          · rw [kept] at new
            cases new
      | insert stored fresh _ _ later =>
          rw [later] at new
          obtain ⟨rfl, _⟩ := Prod.mk.inj (Option.some.inj new)
          exact .inr fresh
      | settle _ _ _ later =>
          rw [later] at new
          cases new
    · exact .inl old
  · exact .inl (submits ▸ owned)
  · cases owned

/-- The end of a call decides the status of the event, and no submit owns the event any more. -/
theorem Process.Consistent.delivered {action : Action} (consistent : process.Consistent storage)
    (taken : process.step storage settings action = some after) {queued : Bool}
    (delivers : process.delivers eventId action = some queued) :
    ∃ outcome event, action.ended = some outcome ∧ after.db.events.get eventId = some event ∧
      event.processingStatus =
        (if queued then deliveredStatus outcome else settledStatus settings outcome) ∧
      (∀ i submission event, (after.submits i).owned = some (submission, event) →
        submission.command.eventId ≠ eventId) ∧
      if queued then ∃ earlier, process.db.events.get eventId = some earlier ∧
        earlier.processingStatus = .queued
      else ∃ i submission event, (process.submits i).owned = some (submission, event) ∧
        submission.command.eventId = eventId := by
  cases action with
  | resume i outcome now =>
      obtain ⟨held, owned, found⟩ := Option.bind_eq_some_iff.mp delivers
      obtain ⟨own, same⟩ := Option.ite_none_right_eq_some.mp found
      obtain rfl := Option.some.inj same
      rcases Process.step_cases taken with ⟨j, submit, step, submits, _⟩ | ⟨step, _⟩ | ⟨other, _⟩
      · obtain rfl := Option.some.inj step.call_eq
        obtain ⟨submission, earlier, later, events⟩ := step.resumed (consistent.owns i)
        obtain rfl := Option.some.inj (owned.symm.trans earlier)
        refine ⟨outcome, _, rfl, by rw [events, if_pos own.symm], rfl, ?_, i, _, _, earlier, own⟩
        intro k other event kept same
        rcases owned_of_update (submits ▸ kept) with ⟨rfl, new⟩ | ⟨different, old⟩
        · rw [later] at new
          cases new
        · exact different (consistent.distinct k i _ _ old earlier (same.trans own.symm))
      · cases step
      · cases other
  | deliver outcome now draw =>
      obtain ⟨⟨delivery, event⟩, held, found⟩ := Option.bind_eq_some_iff.mp delivers
      obtain ⟨own, same⟩ := Option.ite_none_right_eq_some.mp found
      obtain rfl := Option.some.inj same
      rcases Process.step_cases taken with ⟨j, _, step, _⟩ | ⟨step, submits⟩ | ⟨other, _⟩
      · cases step.call_eq
      · obtain ⟨_, _, earlier, status, stored, events⟩ :=
          step.delivered consistent.valid consistent.current
        obtain ⟨rfl, rfl⟩ := Prod.mk.inj (Option.some.inj (held.symm.trans earlier))
        refine ⟨outcome, _, rfl, by rw [events, if_pos own.symm], rfl, ?_, event,
          own ▸ stored, status⟩
        intro k other kept owned same
        have pending := (consistent.owns k other kept (submits ▸ owned)).2
        have waiting := (consistent.current delivery event held).2
        rw [same, ← own, waiting] at pending
        cases pending
      · cases other
  | arrive | advance | poll | take | rest | crash => cases delivers

section Step
variable {action : Action} {told : List DeliveryCall}

/-- An event that is not stored has no calls. -/
theorem Told.absent (tells : Told settings process eventId told)
    (missing : process.db.events.get eventId = none) : told = [] := by
  by_contra some
  obtain ⟨earlier, call, same⟩ := (List.eq_nil_or_concat _).resolve_left some
  obtain ⟨event, present, _⟩ := tells.last earlier call (by rw [same, List.concat_eq_append])
  rw [missing] at present
  cases present

/-- A step without the end of a call keeps the calls telling the status. -/
theorem Told.undelivered (tells : Told settings process eventId told)
    (consistent : process.Consistent storage)
    (taken : process.step storage settings action = some after)
    (other : process.delivers eventId action = none) : Told settings after eventId told := by
  obtain ⟨kept, fresh⟩ := consistent.undelivered taken other
  refine ⟨fun none event present => ?_, fun earlier call same => ?_,
    fun i submission event owned own => ?_⟩
  · cases stored : process.db.events.get eventId with
    | none => exact fresh event stored present
    | some before =>
        obtain ⟨later, found, same⟩ := kept before stored
        obtain rfl := Option.some.inj (present.symm.trans found)
        rw [same]
        exact tells.pending none before stored
  · obtain ⟨event, present, leaves, others⟩ := tells.last earlier call same
    obtain ⟨later, found, status⟩ := kept event present
    exact ⟨later, found, status ▸ leaves, others⟩
  · rcases consistent.owner taken owned with before | new
    · exact tells.owned i submission event before own
    · exact tells.absent (own ▸ new)

/-- All calls of a queued event left it queued, and an event that a submit owns has no calls. -/
theorem Told.queued (tells : Told settings process eventId told) {queued : Bool}
    (before : if queued then ∃ earlier, process.db.events.get eventId = some earlier ∧
        earlier.processingStatus = .queued
      else ∃ i submission event, (process.submits i).owned = some (submission, event) ∧
        submission.command.eventId = eventId) :
    ∀ call ∈ told, call.Leaves settings .queued := by
  intro other member
  obtain ⟨earlier, call, same⟩ :=
    (List.eq_nil_or_concat _).resolve_left (List.ne_nil_of_mem member)
  rw [List.concat_eq_append] at same
  cases queued with
  | false =>
      obtain ⟨i, submission, held, owned, own⟩ := before
      rw [tells.owned i submission held owned own] at member
      cases member
  | true =>
      obtain ⟨stored, found, waiting⟩ := before
      obtain ⟨last, known, leaves, others⟩ := tells.last earlier call same
      obtain rfl := Option.some.inj (found.symm.trans known)
      rw [same] at member
      rcases List.mem_append.mp member with old | last
      · exact others other old
      · rw [List.mem_singleton.mp last, ← waiting]
        exact leaves

end Step

/-- Every step keeps the calls of an event telling its status. -/
theorem Told.step {attempted : Attempted} (consistent : process.Consistent storage)
    (called : attempted.Called settings)
    (taken : process.step storage settings attempted.action = some after)
    (told : Told settings process eventId (calls eventId trace)) :
    Told settings after eventId (calls eventId (trace ++ [⟨process, attempted, after⟩])) := by
  rw [calls_append]
  cases delivers : process.delivers eventId attempted.action with
  | none =>
      rw [Option.map_none, Option.toList_none, List.append_nil]
      exact told.undelivered consistent taken delivers
  | some queued =>
      obtain ⟨outcome, event, ended, present, status, free, before⟩ :=
        consistent.delivered taken delivers
      obtain ⟨breaker, now, ends⟩ := called outcome ended
      have reports := ends.reports (ClientRequest.pending_start breaker now)
      rw [Option.map_some, Option.toList_some]
      refine ⟨fun none => absurd none (by simp), fun first call same => ?_,
        fun i submission held owned own => absurd own (free i submission held owned)⟩
      obtain ⟨rfl, last⟩ := List.append_inj' same rfl
      obtain rfl := (List.cons.inj last).1
      exact ⟨event, present, ⟨outcome, reports, status⟩, told.queued before⟩

/-- The calls of every run tell the status of every event. -/
theorem told_of_traced
    (traced : (answering storage settings).TracedWithin
      (fun _ attempted => attempted.Called settings) process trace) :
    process.Consistent storage ∧
      ∀ eventId, Told settings process eventId (calls eventId trace) := by
  refine traced.invariant (fun process trace => process.Consistent storage ∧
    ∀ eventId, Told settings process eventId (calls eventId trace))
    ⟨Process.consistent_initial storage settings, fun eventId => ?_⟩
    fun process trace attempted after _ held called taken =>
      ⟨(held.1.step taken).1, fun eventId => (held.2 eventId).step held.1 called taken⟩
  refine ⟨fun _ event present => (by cases present), fun earlier call same => ?_, fun _ _ _ _ _ => rfl⟩
  exact absurd same.symm (by simp [calls])

end Told

section Documented

/-- A reported outcome is documented when its answers are. -/
theorem Reports.documented {answers : List AttemptOutcome} (queued : Bool)
    (reports : Reports answers outcome) :
    (∀ answer ∈ answers, answer.Documented queued) ↔
      (∀ response, outcome = .response response →
        (200 ≤ response.statusCode ∧ response.statusCode < 300) ∨
          (400 ≤ response.statusCode ∧ response.statusCode < 500)) ∧
        (outcome = .raised → queued) := by
  have failures (answer : AttemptOutcome) (failed : answer.failure) :
      answer.Documented queued := by
    cases answer with
    | response response => exact .inr (.inr failed)
    | timeout | connectError => trivial
    | raised => cases failed
  rw [reports.forall_iff failures]
  refine and_congr_left fun _ => forall_congr' fun response => forall_congr' fun same => ?_
  subst same
  have final := reports.getLast?_response.2
  simp [AttemptOutcome.Documented, final]

/-- The last answer has a status that the client does not retry exactly when it is reported. -/
theorem Reports.last_iff {answers : List AttemptOutcome} (holds : Nat → Prop)
    (final : ∀ statusCode, holds statusCode → ClientRequest.transient statusCode = false)
    (reports : Reports answers outcome) :
    (∃ response : Response, answers.getLast? = some (.response response) ∧
        holds response.statusCode) ↔
      ∃ response, outcome = .response response ∧ holds response.statusCode := by
  constructor
  · rintro ⟨response, last, held⟩
    rcases reports.of_getLast? last with same | failed
    · exact ⟨response, same, held⟩
    · rw [final _ held] at failed
      cases failed
  · rintro ⟨response, rfl, held⟩
    exact ⟨response, reports.getLast?_response.1, held⟩

theorem transient_eq_false {statusCode : Nat} (other : statusCode < 500) :
    ClientRequest.transient statusCode = false := by
  simp only [ClientRequest.transient, Bool.or_eq_false_iff, beq_eq_false_iff_ne]
  omega

/-- A call leaves its event as the last answer says exactly when its answers are documented. -/
theorem DeliveryCall.Leaves.documented_iff {call : DeliveryCall} {status : ProcessingStatus}
    (enabled : settings.asyncFallbackEnabled) (leaves : call.Leaves settings status) :
    ((status = .applied → call.Accepted) ∧ (status = .failed → call.Rejected) ∧
        (¬ call.Accepted → ¬ call.Rejected → status = .queued)) ↔
      ∀ answer ∈ call.answers, answer.Documented call.queued := by
  obtain ⟨outcome, reports, status⟩ := leaves
  have accepted : call.Accepted ↔ ∃ response, outcome = .response response ∧
      200 ≤ response.statusCode ∧ response.statusCode < 300 :=
    reports.last_iff (fun code => 200 ≤ code ∧ code < 300) fun code held =>
      transient_eq_false (by omega)
  have rejected : call.Rejected ↔ ∃ response, outcome = .response response ∧
      400 ≤ response.statusCode ∧ response.statusCode < 500 :=
    reports.last_iff (fun code => 400 ≤ code ∧ code < 500) fun code held =>
      transient_eq_false (by omega)
  rw [accepted, rejected, reports.documented call.queued, status]
  cases outcome with
  | response response =>
      have decided : (if call.queued then deliveredStatus (.response response)
          else settledStatus settings (.response response)) =
            if 400 ≤ response.statusCode then .failed else .applied := by
        split <;> rfl
      rw [decided]
      by_cases error : 400 ≤ response.statusCode
      · simp only [if_pos error, reduceCtorEq, CallOutcome.response.injEq]
        simp
        omega
      · simp only [if_neg error]
        simp
        omega
  | unavailable message => cases call.queued <;> simp [deliveredStatus, settledStatus, enabled]
  | raised => cases call.queued <;> simp [deliveredStatus, settledStatus]

/-- The queue holds exactly the deliverable events. -/
theorem Process.Consistent.deliverable_iff {event : Event} (consistent : process.Consistent storage)
    (present : process.db.events.get eventId = some event) :
    process.db.Deliverable eventId ↔ event.processingStatus = .queued := by
  constructor
  · rintro ⟨stored, delivery, entry, queued⟩
    obtain rfl := Option.some.inj (present.symm.trans (congrArg Entry.event entry))
    exact queued
  · intro queued
    obtain ⟨delivery, waiting⟩ := Option.isSome_iff_exists.mp
      ((consistent.valid eventId).mpr ⟨event, present, queued⟩)
    exact ⟨event, delivery, Entry.ext present waiting, queued⟩

end Documented

/-- Every event of a run is classified by its answers exactly when all answers are documented. -/
theorem deliveries_classified_iff (enabled : settings.asyncFallbackEnabled)
    {trace : Trace Process Attempted}
    (traced : (answering storage settings).TracedWithin
      (fun _ attempted => attempted.Called settings) process trace) :
    (∀ eventId, Classified process.db eventId (calls eventId trace)) ↔
      ∀ eventId, ∀ call ∈ calls eventId trace, ∀ answer ∈ call.answers,
        answer.Documented call.queued := by
  obtain ⟨consistent, told⟩ := told_of_traced traced
  refine forall_congr' fun eventId => ?_
  rcases List.eq_nil_or_concat (calls eventId trace) with none | ⟨earlier, call, same⟩
  · have pending := (told eventId).pending none
    rw [none]
    refine ⟨fun _ call member => (by cases member), fun _ => ⟨fun event present applied => ?_,
      fun event present failed => ?_, fun call last => by cases last⟩⟩
    · rw [pending event present] at applied
      cases applied
    · rw [pending event present] at failed
      cases failed
  · rw [List.concat_eq_append] at same
    obtain ⟨event, present, leaves, others⟩ := (told eventId).last earlier call same
    have retried : ∀ other ∈ earlier, ∀ answer ∈ other.answers, answer.Documented other.queued :=
      fun other member => ((others other member).documented_iff enabled).mp (by simp)
    have deliverable := consistent.deliverable_iff present
    rw [same, List.forall_mem_append, and_iff_right retried, List.forall_mem_singleton,
      ← leaves.documented_iff enabled, ← deliverable]
    have last : (earlier ++ [call]).getLast? = some call := List.getLast?_concat
    constructor
    · intro classified
      refine ⟨fun applied => ?_, fun failed => ?_, classified.deliverable call last⟩
      · obtain ⟨found, found_last, accepted⟩ := classified.applied event present applied
        obtain rfl := Option.some.inj (last.symm.trans found_last)
        exact accepted
      · obtain ⟨found, found_last, rejected⟩ := classified.failed event present failed
        obtain rfl := Option.some.inj (last.symm.trans found_last)
        exact rejected
    · rintro ⟨applied, failed, queued⟩
      refine ⟨fun stored found status => ?_, fun stored found status => ?_, fun other own => ?_⟩
      · obtain rfl := Option.some.inj (present.symm.trans found)
        exact ⟨call, last, applied status⟩
      · obtain rfl := Option.some.inj (present.symm.trans found)
        exact ⟨call, last, failed status⟩
      · obtain rfl := Option.some.inj (last.symm.trans own)
        exact queued

section Runs
variable {action : Action} {answers : List AttemptOutcome}

theorem Attempted.called_of_none (silent : action.ended = none) :
    (Attempted.mk action answers).Called settings := by
  intro outcome ended
  rw [silent] at ended
  cases ended

theorem Attempted.called_of_ends (ended : action.ended = some outcome)
    (ends : (ClientRequest.start settings .closed 0).Ends settings answers outcome) :
    (Attempted.mk action answers).Called settings := by
  intro other same
  obtain rfl := Option.some.inj (ended.symm.trans same)
  exact ⟨.closed, 0, ends⟩

theorem ends_of_response (response : Response)
    (final : ClientRequest.transient response.statusCode = false) :
    (ClientRequest.start .default .closed 0).Ends .default [.response response]
      (.response response) := by
  refine .attempt .closed 0 0 (.response response) ?_
  simp only [ClientRequest.attemptEnds, final, Bool.false_eq_true, if_false]
  exact .finished _

theorem ends_of_timeouts (message : String) :
    (ClientRequest.start .default .closed 0).Ends .default
      [.timeout message, .timeout message, .timeout message] (.unavailable message) :=
  .attempt .closed 0 0 _ (.wake 0 (.attempt .closed 1 0 _ (.wake 1
    (.attempt .closed 2 0 _ (.finished _)))))

/-- A submit stores its event and calls the Account Service. -/
def submitted : List Attempted :=
  [⟨.arrive 0 ⟨creditX.event, "trace"⟩, []⟩, ⟨.advance 0, []⟩, ⟨.advance 0, []⟩, ⟨.advance 0, []⟩]

theorem submitted_called : ∀ attempted ∈ submitted, attempted.Called .default := by
  simp only [submitted, List.forall_mem_cons]
  exact ⟨Attempted.called_of_none rfl, Attempted.called_of_none rfl, Attempted.called_of_none rfl,
    Attempted.called_of_none rfl, by simp⟩

/-- An event is queued after three timeouts and applied by the worker. -/
def queuedThenApplied : List Attempted :=
  submitted ++ [⟨.resume 0 (.unavailable "timeout") 0,
      [.timeout "timeout", .timeout "timeout", .timeout "timeout"]⟩,
    ⟨.poll 0, []⟩, ⟨.take "fresh", []⟩,
    ⟨.deliver (.response ⟨201, "application/json", some "", none⟩) 0 .zero,
      [.response ⟨201, "application/json", some "", none⟩]⟩]

theorem deliveries_classified_queued : ∃ process trace,
    (answering .wallClock .default).traced.run (answering .wallClock .default).traced.initial
      queuedThenApplied = some (process, trace) ∧
    ∀ eventId, Classified process.db eventId (calls eventId trace) := by
  obtain ⟨⟨process, trace⟩, ran⟩ := Option.isSome_iff_exists.mp
    (show ((answering .wallClock .default).traced.run (answering .wallClock .default).traced.initial
      queuedThenApplied).isSome by decide)
  have called : ∀ attempted ∈ queuedThenApplied, attempted.Called .default := by
    simp only [queuedThenApplied, List.forall_mem_append, List.forall_mem_cons]
    exact ⟨submitted_called, Attempted.called_of_ends rfl (ends_of_timeouts "timeout"),
      Attempted.called_of_none rfl, Attempted.called_of_none rfl,
      Attempted.called_of_ends rfl (ends_of_response _ rfl), by simp⟩
  have documented : ∀ attempted ∈ queuedThenApplied, ∀ queued, ∀ answer ∈ attempted.answers,
      answer.Documented queued := by
    simp [queuedThenApplied, submitted, AttemptOutcome.Documented]
  have traced : (answering .wallClock .default).TracedWithin
      (fun _ attempted => attempted.Called .default) process trace :=
    Machine.reachedWithin_of_always queuedThenApplied
      (fun attempted member _ => called attempted member) .initial ran
  refine ⟨process, trace, ran, (deliveries_classified_iff rfl traced).mpr ?_⟩
  intro eventId call member
  obtain ⟨transition, recorded, found⟩ := List.mem_filterMap.mp member
  obtain ⟨queued, _, rfl⟩ := Option.map_eq_some_iff.mp found
  refine documented transition.action ?_ queued
  have actions : trace.map Transition.action = queuedThenApplied := Machine.traced_run ran
  rw [← actions]
  exact List.mem_map_of_mem recorded

/-- A redirect applies an event. -/
def redirected : List Attempted :=
  submitted ++ [⟨.resume 0 (.response ⟨302, "", "", none⟩) 0, [.response ⟨302, "", "", none⟩]⟩]

theorem deliveries_redirect_applied : ∃ process trace,
    (answering .wallClock .default).traced.run (answering .wallClock .default).traced.initial redirected =
      some (process, trace) ∧
    (∀ attempted ∈ redirected, attempted.Called .default) ∧
    ¬ Classified process.db "x" (calls "x" trace) := by
  obtain ⟨⟨process, trace⟩, ran, observed⟩ := Option.map_eq_some_iff.mp
    (show ((answering .wallClock .default).traced.run (answering .wallClock .default).traced.initial
      redirected).map (fun (process, trace) => (process.db.events.get "x", calls "x" trace)) =
        some (some ((Submission.row .wallClock ⟨creditX.event, "trace"⟩).withStatus .applied),
          [⟨false, [.response ⟨302, "", "", none⟩]⟩]) by rfl)
  obtain ⟨applied, called⟩ := Prod.mk.inj observed
  refine ⟨process, trace, ran, ?_, fun classified => ?_⟩
  · simp only [redirected, List.forall_mem_append, List.forall_mem_cons]
    exact ⟨submitted_called, Attempted.called_of_ends rfl (ends_of_response _ rfl), by simp⟩
  · obtain ⟨call, last, response, answered, low, high⟩ := classified.applied _ applied rfl
    rw [called] at last
    obtain rfl := Option.some.inj last
    cases answered
    revert high
    decide

end Runs

end EventLedger.EventGateway
