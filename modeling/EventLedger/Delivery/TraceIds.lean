import EventLedger.Delivery.Retry
import EventLedger.EventGateway.TraceContext
import EventLedger.Library.Lists

namespace EventLedger.AccountService
open Library Python

variable {storage : Storage} {request : Request} {db : Database} {work : Work}

/-- Work under a request records only its trace id. -/
def Work.Under (request : Request) (work : Work) : Prop :=
  ∀ record ∈ work.records, record.traceId = request.traceId

theorem Request.Compares.under {message : String} (compares : request.Compares db message work) :
    work.Under request := by
  cases compares with
  | undefined => exact fun record member => by cases member
  | conflict | replay =>
      intro record member
      obtain rfl := List.mem_singleton.mp member
      rfl

theorem Request.Begins.under (begins : request.Begins storage db work) : work.Under request := by
  intro record member
  cases begins with
  | path | currency =>
      obtain rfl := List.mem_singleton.mp member
      rfl
  | compare work addressed compares => exact compares.under record member
  | create | update =>
      simp only [write, List.mem_append, List.mem_cons, List.not_mem_nil, or_false] at member
      rcases member with created | rfl | rfl
      · simp_all [Request.record]
      · rfl
      · rfl

theorem Request.recover_under (request : Request) (db : Database) :
    (request.recover db).Under request := by
  rcases request.recover_cases db with compares | ⟨_, conflicts⟩
  · exact compares.under
  · rw [conflicts]
    intro record member
    obtain rfl := List.mem_singleton.mp member
    rfl

/-- A commit appends the records of its work. -/
theorem Database.commit_audit {next : Database} (committed : db.commit storage work = some next) :
    next.audit = db.audit ++ work.records := by
  obtain ⟨accounts, _, rest⟩ := Option.bind_eq_some_iff.mp committed
  obtain ⟨transactions, _, same⟩ := Option.bind_eq_some_iff.mp rest
  rw [← Option.some.inj same]

/-- A request records only its trace id. -/
theorem Request.apply_under (storage : Storage) (request : Request) (db : Database) :
    ∃ records, (request.apply storage db).1.audit = db.audit ++ records ∧
      ∀ record ∈ records, record.traceId = request.traceId := by
  simp only [apply]
  cases committed : db.commit storage (request.begin storage db) with
  | some next => exact ⟨_, Database.commit_audit committed, (request.begins storage db).under⟩
  | none =>
      cases recovered : db.commit storage (request.recover db) with
      | some next => exact ⟨_, Database.commit_audit recovered, request.recover_under db⟩
      | none => exact ⟨[], by simp, by simp⟩

end EventLedger.AccountService

namespace EventLedger.Delivery
open Library Python EventGateway

variable {environment : Environment} {system next first arrived last : System}
  {action : Delivery.Action} {eventId traceId : String} {i : Nat}
  {trace : Trace System Delivery.Action} {transition other : Transition System Delivery.Action}

/-- A delivery request records only its trace id. -/
theorem handle_under (environment : Environment) (accountId : String) (body : Payload)
    (traceId : String) (db : AccountService.Database) :
    ∃ records, (handle environment accountId body traceId db).1.audit = db.audit ++ records ∧
      ∀ record ∈ records, record.traceId = traceId := by
  unfold handle
  split
  · exact ⟨[], by simp, by simp⟩
  · exact AccountService.Request.apply_under _ _ db

/-- These records are appended to the gateway's audit log in one step. -/
def gatewayRecords (transition : Transition System Delivery.Action) :
    List EventGateway.AuditRecord :=
  transition.after.gateway.db.audit.drop transition.before.gateway.db.audit.length

/-- These records are appended to the Account Service's audit log in one step. -/
def accountRecords (transition : Transition System Delivery.Action) :
    List AccountService.AuditRecord :=
  transition.after.account.audit.drop transition.before.account.audit.length

/-- A submit reads and commits in these steps. -/
def Action.submit : Delivery.Action → Option Nat
  | .advance i | .resume (.submit i) _ _ => some i
  | _ => none

/-- The worker reads and commits in these steps. -/
def Action.worker : Delivery.Action → Bool
  | .poll _ | .take _ | .rest | .resume .worker _ _ => true
  | _ => false

/-- A submit lives until the first crash. -/
def alive (trace : Trace System Delivery.Action) : Trace System Delivery.Action :=
  trace.takeWhile fun transition => !transition.action.crashes

/-- The submit stores its event as a new one. -/
def StoredBy (i : Nat) (trace : Trace System Delivery.Action) : Prop :=
  ∃ transition ∈ alive trace, ∃ submission event,
    transition.before.gateway.submits i = .inserting submission ∧
      transition.after.gateway.submits i = .stored submission event

/-- In one step the queued delivery of an event, its requests and all records of its worker and of its
requests carry one trace id. -/
structure CarriesTrace (eventId traceId : String) (transition : Transition System Delivery.Action) :
    Prop where
  queued : ∀ delivery, transition.after.gateway.db.deliveries.get eventId = some delivery →
    delivery.traceId = traceId
  sent : ∀ message ∈ transition.after.network, message.payload.eventId = eventId →
    message.traceId = traceId
  worked : transition.action.worker → ∀ record ∈ gatewayRecords transition,
    record.eventId = eventId → record.traceId = traceId
  handled : ∀ tag fresh message, transition.action = .process tag fresh →
    transition.before.network[tag]? = some message → message.payload.eventId = eventId →
      ∀ record ∈ accountRecords transition, record.traceId = traceId

/-- The system carries a trace id for an event in its gateway and in its requests. -/
inductive System.Traces (system : System) (eventId traceId : String) : Prop where
  | gateway (traces : system.gateway.Traces eventId traceId)
  | sent (message : Message) (member : message ∈ system.network)
      (own : message.payload.eventId = eventId) (same : message.traceId = traceId)

/-- An event follows one trace id when the system carries no other one for it. -/
def System.Follows (system : System) (eventId traceId : String) : Prop :=
  ∀ other, system.Traces eventId other → other = traceId

/-- The system carries no trace id for an event that is not stored. -/
theorem untraced_of_absent (reached : (twoServices environment).Reachable system)
    (absent : system.gateway.db.events.get eventId = none) : ¬ system.Traces eventId traceId := by
  intro traces
  cases traces with
  | gateway traces =>
      exact (consistent_of_reachable (gateway_reachable reached)).untraced absent traces
  | sent message member own =>
      obtain ⟨event, present, _⟩ := (identified_of_reachable reached).stored message.payload
        (.inr ⟨message, member, rfl⟩)
      rw [own, absent] at present
      cases present

/-- An open call sends its payload under the trace id that the gateway carries. -/
theorem calling_traces (reached : (twoServices environment).Reachable system) {caller : Caller}
    {payload : Payload} (calls : calling system.gateway caller = some (payload, traceId)) :
    system.gateway.Traces payload.eventId traceId := by
  have gateway := gateway_reachable reached
  cases calls_of_calling calls with
  | submit i submission event awaits =>
      exact .owned i submission event (by rw [awaits]; rfl) rfl rfl
  | worker delivery event _ remaining processed awaits =>
      exact .held delivery event remaining processed awaits
        (eventId_of_held gateway (by rw [awaits]; rfl))

/-- A step carries only old trace ids for a stored event, up to a normalization, and a new event is
carried by the submit that has stored it. -/
theorem System.Step.traces (reached : (twoServices environment).Reachable system)
    (step : System.Step environment system action next) (traces : next.Traces eventId traceId) :
    (∃ earlier, system.Traces eventId earlier ∧
        (traceId = earlier ∨ ∃ fresh, traceId = normalizeTraceId (some earlier) fresh)) ∨
      system.gateway.db.events.get eventId = none ∧ ∃ i submission event,
        (next.gateway.submits i).owned = some (submission, event) ∧
          submission.command.eventId = eventId ∧ submission.traceId = traceId := by
  cases traces with
  | gateway traces =>
      rcases step.gateway with same | ⟨inner, stepped⟩
      · exact .inl ⟨traceId, .gateway (same ▸ traces), .inl rfl⟩
      · rcases (consistent_of_reachable (gateway_reachable reached)).traces stepped traces with
          ⟨earlier, before, same⟩ | new
        · exact .inl ⟨earlier, .gateway before, same⟩
        · exact .inr new
  | sent message member own same =>
      left
      rcases step.sent member with ⟨earlier, old, payload, kept⟩ | ⟨caller, calls⟩
      · exact ⟨traceId, .sent earlier old (payload ▸ own) (kept.trans same), .inl rfl⟩
      · exact ⟨traceId, .gateway (own ▸ same ▸ calling_traces reached calls), .inl rfl⟩

/-- A stored event follows its trace id in every step. -/
theorem System.Follows.step (follows : system.Follows eventId traceId)
    (matching : traceMatches traceId) (reached : (twoServices environment).Reachable system)
    (present : system.gateway.db.events.get eventId ≠ none)
    (step : System.Step environment system action next) : next.Follows eventId traceId := by
  intro other traces
  rcases step.traces reached traces with ⟨earlier, before, same⟩ | ⟨absent, _⟩
  · obtain rfl := follows earlier before
    rcases same with rfl | ⟨fresh, rfl⟩
    · rfl
    · exact normalizeTraceId_of_matches matching fresh
  · exact absurd absent present

section Run

/-- A step of a submit or of the worker is that step of the gateway process. -/
theorem System.step_acts (i : Nat) (taken : system.step environment action = some next)
    (acts : action.submit = some i ∨ action.worker) : ∃ inner, inner ≠ .crash ∧
      (action.submit = some i → inner.call = some i) ∧ (action.worker → inner.call = none) ∧
      system.gateway.step environment.gatewayStorage environment.settings inner =
        some next.gateway := by
  cases action with
  | advance j =>
      obtain ⟨gateway, stepped, rfl⟩ := Option.map_eq_some_iff.mp taken
      exact ⟨_, by simp, id, fun worker => (by cases worker), stepped⟩
  | poll now | take fresh | rest =>
      obtain ⟨gateway, stepped, rfl⟩ := Option.map_eq_some_iff.mp taken
      exact ⟨_, by simp, fun submit => (by cases submit), fun _ => rfl, stepped⟩
  | resume caller now draw =>
      simp only [System.step] at taken
      split at taken
      · next outcome finished =>
          obtain ⟨acted, actedTo, rfl⟩ := Option.map_eq_some_iff.mp taken
          obtain ⟨gateway, stepped, rfl⟩ := Option.map_eq_some_iff.mp actedTo
          refine ⟨caller.resume outcome now draw, ?_, ?_, ?_, stepped⟩ <;> cases caller <;>
            simp [Caller.resume, Action.submit, Action.worker, EventGateway.Action.call]
      · cases taken
  | arrive | call | receive | interrupt | wake | process | direct | crash =>
      rcases acts with submit | worker
      · cases submit
      · cases worker

/-- The records of a submit are written under its trace id. -/
theorem gatewayRecords_submit
    (taken : system.step environment action = some next) (own : action.submit = some i)
    (under : (system.gateway.submits i).Under traceId) :
    ∀ record ∈ gatewayRecords ⟨system, action, next⟩, record.traceId = traceId := by
  obtain ⟨inner, running, called, _, stepped⟩ := System.step_acts i taken (.inl own)
  obtain ⟨records, audit, traced⟩ := (Process.under_step stepped running under).2 (called own)
  simpa [gatewayRecords, audit] using traced

/-- One step carries the trace id that its event follows before and after it. -/
theorem carriesTrace_of_follows (matching : traceMatches traceId)
    (before : transition.before.Follows eventId traceId)
    (after : transition.after.Follows eventId traceId)
    (taken : transition.before.step environment transition.action = some transition.after) :
    CarriesTrace eventId traceId transition := by
  refine ⟨fun delivery queued => after _ (.gateway (.queued delivery queued rfl)),
    fun message member own => after _ (.sent message member own rfl), fun worker => ?_,
    fun tag fresh message acted found own => ?_⟩
  · obtain ⟨inner, running, _, called, stepped⟩ :=
      System.step_acts 0 taken (.inr worker)
    rcases Process.step_cases stepped with ⟨j, _, step, _⟩ | ⟨step, _⟩ | ⟨crashed, _⟩
    · exact absurd (step.call_eq.symm.trans (called worker)) (by simp)
    · obtain ⟨records, audit, worked⟩ := step.records
      intro record member own
      simp only [gatewayRecords, audit, List.drop_left] at member
      obtain ⟨delivery, event, remaining, processed, held, same⟩ := worked record member
      exact before _ (.gateway (.held delivery event remaining processed held (same.symm.trans own)))
    · exact absurd crashed running
  · rw [acted] at taken
    simp only [System.step, found] at taken
    split at taken
    · obtain ⟨records, audit, handled⟩ := handle_under environment
        (environment.path message.payload.accountId) message.payload
        (normalizeTraceId (some message.traceId) fresh) transition.before.account
      have same := before _ (.sent message (List.mem_of_getElem? found) own rfl)
      rw [same, normalizeTraceId_of_matches matching] at handled audit
      intro record member
      simp only [accountRecords, ← Option.some.inj taken, System.process, same,
        normalizeTraceId_of_matches matching, audit, List.drop_left] at member
      exact handled record member
    · cases taken

/-- What a run tells about a submit that has arrived under a trace id. -/
structure TraceKept (i : Nat) (eventId traceId : String) (system : System)
    (trace : Trace System Delivery.Action) : Prop where
  under : (∀ transition ∈ trace, transition.action.crashes = false) →
    (system.gateway.submits i).Under traceId ∧ ∀ submission,
      (system.gateway.submits i).submission = some submission →
        submission.command.eventId = eventId
  written : ∀ transition ∈ alive trace, transition.action.submit = some i →
    ∀ record ∈ gatewayRecords transition, record.traceId = traceId
  absent : system.gateway.db.events.get eventId = none → ∀ transition ∈ trace,
    transition.before.gateway.db.events.get eventId = none ∧
      transition.after.gateway.db.events.get eventId = none
  follows : StoredBy i trace → system.gateway.db.events.get eventId ≠ none ∧
    system.Follows eventId traceId ∧ ∀ transition ∈ trace,
      transition.before.Follows eventId traceId ∧ transition.after.Follows eventId traceId

theorem alive_append : other ∈ alive (trace ++ [transition]) ↔ other ∈ alive trace ∨
    (∀ earlier ∈ trace, earlier.action.crashes = false) ∧
      transition.action.crashes = false ∧ other = transition := by
  simp only [alive, mem_takeWhile_concat, Bool.not_eq_true']

/-- The step that stores a new event makes it follow the trace id of its submit. -/
theorem System.follows_of_stored {submission : Submission} {event : Event}
    (reached : (twoServices environment).Reachable system)
    (taken : system.step environment action = some next)
    (inserting : system.gateway.submits i = .inserting submission)
    (inserted : next.gateway.submits i = .stored submission event) :
    system.gateway.db.events.get submission.command.eventId = none ∧
      next.gateway.db.events.get submission.command.eventId = some event ∧
      next.Follows submission.command.eventId submission.traceId := by
  have step := System.step_cases taken
  have owned : (next.gateway.submits i).owned = some (submission, event) := by
    rw [inserted]
    rfl
  have later := consistent_of_reachable (gateway_reachable (reached.step action taken))
  have absent : system.gateway.db.events.get submission.command.eventId = none := by
    rcases step.gateway with same | ⟨inner, stepped⟩
    · rw [same, inserting] at inserted
      cases inserted
    · rcases (consistent_of_reachable (gateway_reachable reached)).owner stepped owned with
        before | absent
      · rw [inserting] at before
        cases before
      · exact absent
  refine ⟨absent, congrArg Entry.event (later.owns i submission event owned).2,
    fun other traces => ?_⟩
  rcases step.traces reached traces with ⟨earlier, before, _⟩ | ⟨_, j, second, _, held, own, rfl⟩
  · exact absurd before (untraced_of_absent reached absent)
  · obtain rfl := later.distinct j i _ _ held owned own
    obtain ⟨rfl, _⟩ := Prod.mk.inj (Option.some.inj (held.symm.trans owned))
    rfl

/-- A stored event stays stored. -/
theorem System.Step.stays (step : System.Step environment system action next)
    (consistent : system.gateway.Consistent environment.gatewayStorage)
    (present : system.gateway.db.events.get eventId ≠ none) :
    next.gateway.db.events.get eventId ≠ none := by
  obtain ⟨event, present⟩ := Option.ne_none_iff_exists'.mp present
  obtain ⟨later, found, _⟩ := step.events consistent present
  rw [found]
  exact Option.some_ne_none later

/-- An event that is not stored follows every trace id. -/
theorem System.follows_of_absent (reached : (twoServices environment).Reachable system)
    (absent : system.gateway.db.events.get eventId = none) : system.Follows eventId traceId :=
  fun _ traces => absurd traces (untraced_of_absent reached absent)

theorem TraceKept.step (kept : TraceKept i eventId traceId system trace)
    (matching : traceMatches traceId) (reached : (twoServices environment).Reachable system)
    (earlier : ∀ transition ∈ trace, (twoServices environment).Reachable transition.before ∧
      (twoServices environment).Reachable transition.after)
    (taken : system.step environment action = some next) :
    TraceKept i eventId traceId next (trace ++ [⟨system, action, next⟩]) := by
  have step := System.step_cases taken
  have consistent := consistent_of_reachable (gateway_reachable reached)
  refine ⟨fun running => ?_, fun transition member own => ?_, fun absent => ?_, fun stored => ?_⟩
  · obtain ⟨running, last⟩ := List.forall_mem_append.mp running
    obtain ⟨under, submissions⟩ := kept.under running
    rcases step.running (last _ (List.mem_singleton_self _)) with same | ⟨inner, steady, stepped⟩
    · rw [same]
      exact ⟨under, submissions⟩
    · exact ⟨(Process.under_step stepped steady under).1, fun submission later =>
        submissions submission (Process.submission_kept stepped under later)⟩
  · rcases alive_append.mp member with old | ⟨running, _, rfl⟩
    · exact kept.written transition old own
    · exact gatewayRecords_submit taken own (kept.under running).1
  · have before : system.gateway.db.events.get eventId = none := by
      by_contra present
      exact step.stays consistent present absent
    rw [List.forall_mem_append]
    exact ⟨kept.absent before, fun transition last => List.mem_singleton.mp last ▸ ⟨before, absent⟩⟩
  · obtain ⟨transition, member, submission, event, inserting, inserted⟩ := stored
    rcases alive_append.mp member with old | ⟨running, _, rfl⟩
    · obtain ⟨present, follows, throughout⟩ :=
        kept.follows ⟨transition, old, submission, event, inserting, inserted⟩
      have later := follows.step matching reached present step
      exact ⟨step.stays consistent present, later, List.forall_mem_append.mpr
        ⟨throughout, fun transition last => List.mem_singleton.mp last ▸ ⟨follows, later⟩⟩⟩
    · obtain ⟨under, submissions⟩ := kept.under running
      rw [inserting] at under
      obtain rfl := submissions submission (by rw [inserting]; rfl)
      obtain rfl := under
      obtain ⟨absent, present, later⟩ :=
        System.follows_of_stored reached taken inserting inserted
      refine ⟨by simp [present], later, List.forall_mem_append.mpr
        ⟨fun transition member => ?_, fun transition last => List.mem_singleton.mp last ▸
          ⟨System.follows_of_absent reached absent, later⟩⟩⟩
      obtain ⟨before, after⟩ := kept.absent absent transition member
      obtain ⟨first, second⟩ := earlier transition member
      exact ⟨System.follows_of_absent first before, System.follows_of_absent second after⟩

/-- A body that arrives is received as a command under the trace id of its request. -/
theorem System.received_of_arrive {body : Payload} {metadata : Option (List (String × Json))}
    (arrives : system.step environment (.arrive i body metadata traceId) = some next) :
    ∃ command, command.eventId = body.eventId ∧
      next.gateway.submits i = .received ⟨command, traceId⟩ := by
  obtain ⟨command, accepted, arrives⟩ := Option.bind_eq_some_iff.mp arrives
  obtain ⟨gateway, stepped, rfl⟩ := Option.map_eq_some_iff.mp arrives
  refine ⟨command, (EventCreate.validate_eq_some accepted).1, ?_⟩
  simp only [Process.step] at stepped
  split at stepped
  · rw [← Option.some.inj stepped]
    exact Function.update_self ..
  · cases stepped

/-- A run keeps what it tells about a submit that has arrived under a trace id. -/
theorem traceKept_of_runs (matching : traceMatches traceId)
    (reached : (twoServices environment).Reachable arrived)
    (under : (arrived.gateway.submits i).Under traceId)
    (submissions : ∀ submission, (arrived.gateway.submits i).submission = some submission →
      submission.command.eventId = eventId)
    (ran : (twoServices environment).Runs arrived last trace) :
    TraceKept i eventId traceId last trace := by
  induction ran with
  | refl =>
      refine ⟨fun _ => ⟨under, submissions⟩, fun _ member => (by cases member),
        fun _ _ member => (by cases member), fun stored => ?_⟩
      obtain ⟨_, member, _⟩ := stored
      cases member
  | step action earlier taken ih =>
      refine ih.step matching (earlier.reachable reached) (fun transition member => ?_) taken
      obtain ⟨before, stepped⟩ := earlier.transition reached member
      exact ⟨before, before.step _ stepped⟩

end Run

/-- One trace id is carried from the header of a new submit to all its records, its delivery, its
requests and the records of its worker and of its requests, and every attempt of the worker restores
the surrounding context. -/
theorem trace_id_carried {body : Payload} {metadata : Option (List (String × Json))}
    {header : Option String} {uuid : Uuid} (reached : (twoServices environment).Reachable first)
    (arrives : (twoServices environment).step first
      (.arrive i body metadata (normalizeTraceId header uuid.hex)) = some arrived)
    (ran : (twoServices environment).Runs arrived last trace) :
    ∃ traceId, (∀ value, header = some value → traceMatches value → traceId = value) ∧
      (∀ transition ∈ alive trace, transition.action.submit = some i →
        ∀ record ∈ gatewayRecords transition, record.traceId = traceId) ∧
      (StoredBy i trace → ∀ transition ∈ trace, CarriesTrace body.eventId traceId transition) ∧
      ∀ client fresh now draw eventId task,
        (processEvent environment.gatewayStorage environment.settings client fresh now draw eventId
          task).2.context = task.context := by
  have matching := traceMatches_normalizeTraceId header uuid
  have reachable := reached.step _ arrives
  obtain ⟨command, own, received⟩ := System.received_of_arrive arrives
  have kept := traceKept_of_runs matching reachable (by rw [received]; rfl)
    (fun submission same => by
      rw [received] at same
      obtain rfl := Option.some.inj same
      exact own) ran
  refine ⟨_, ?_, kept.written, fun stored transition member => ?_, processEvent_context⟩
  · rintro value rfl matched
    exact normalizeTraceId_of_matches matched uuid.hex
  · obtain ⟨before, after⟩ := (kept.follows stored).2.2 transition member
    exact carriesTrace_of_follows matching before after (ran.transition reachable member).2

/-- The client makes one attempt, so a time-out queues the event. -/
def singleAttempt : Environment :=
  { wallClockEnvironment with
    settings := { EventGateway.Settings.default with accountServiceMaxAttempts := 1 } }

/-- The only attempt of the first submit times out, and the worker applies the event later. -/
def queuedThenApplied : List Delivery.Action :=
  [.advance 0, .advance 0, .advance 0, .call (.submit 0) 0,
    .interrupt (.submit 0) (.timeout "timeout") 2, .resume (.submit 0) 2 .zero, .poll 3,
    .take "fresh", .call .worker 3, .process 1 "fresh",
    .receive .worker ⟨201, "application/json", some "", none⟩ 3, .resume .worker 3 .zero, .rest]

def sampleUuid : Uuid := ⟨"0123456789abcdef0123456789abcdef", by decide, by decide⟩

theorem trace_id_carried_queued : ∃ arrived last trace,
    (twoServices singleAttempt).step (twoServices singleAttempt).initial
      (.arrive 0 creditX.body none (normalizeTraceId (some "trace") sampleUuid.hex)) =
        some arrived ∧
    (twoServices singleAttempt).traced.run (arrived, []) queuedThenApplied = some (last, trace) ∧
    last.account.audit.length = 3 ∧ StoredBy 0 trace ∧
    ∀ transition ∈ trace, CarriesTrace "x" "trace" transition := by
  have ran : ((twoServices singleAttempt).step (twoServices singleAttempt).initial
      (.arrive 0 creditX.body none (normalizeTraceId (some "trace") sampleUuid.hex))).bind
        (fun arrived => ((twoServices singleAttempt).traced.run (arrived, [])
          queuedThenApplied).map fun (last, trace) => (last.account.audit.length,
            ((alive trace)[1]?).map fun transition =>
              (transition.before.gateway.submits 0, transition.after.gateway.submits 0))) =
      some (3, some (.inserting ⟨creditX.event, "trace"⟩, .stored ⟨creditX.event, "trace"⟩
        (Submission.row .wallClock ⟨creditX.event, "trace"⟩))) := by rfl
  obtain ⟨arrived, arrives, ran⟩ := Option.bind_eq_some_iff.mp ran
  obtain ⟨⟨last, trace⟩, ran, observed⟩ := Option.map_eq_some_iff.mp ran
  obtain ⟨records, stores⟩ := Prod.mk.inj observed
  obtain ⟨transition, found, submits⟩ := Option.map_eq_some_iff.mp stores
  obtain ⟨before, after⟩ := Prod.mk.inj submits
  have stored : StoredBy 0 trace := ⟨transition, List.mem_of_getElem? found, _, _, before, after⟩
  obtain ⟨traceId, header, _, carried, _⟩ :=
    trace_id_carried .initial arrives (Machine.runs_of_traced .refl ran)
  obtain rfl := header "trace" rfl (by decide)
  exact ⟨arrived, last, trace, arrives, ran, records, stored, carried stored⟩

end EventLedger.Delivery
