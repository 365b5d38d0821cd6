import EventLedger.AccountService.Effect
import EventLedger.Delivery.ExactlyOnce
import EventLedger.Delivery.Payloads
import EventLedger.EventGateway.Classification
import EventLedger.EventGateway.DeliveryQueue
import EventLedger.EventGateway.Resubmission

namespace EventLedger.Delivery
open Library Python EventGateway

variable {environment : Environment} {process after last : Process}
  {action : EventGateway.Action} {submission : Submission}

/-- The end of a call shows what its caller sent and what it got back. -/
structure CallEnd where
  queued : Bool
  payload : Payload
  traceId : String
  outcome : CallOutcome

/-- A step of the gateway ends a call for the event of its submit or of its worker. -/
def callEnd (eventId : String) (transition : Transition Process EventGateway.Action) :
    Option CallEnd :=
  match transition.action with
  | .resume i outcome _ =>
      match transition.before.submits i with
      | .calling submission _ =>
          if submission.command.eventId = eventId then
            some ⟨false, submission.payload, submission.traceId, outcome⟩
          else none
      | _ => none
  | .deliver outcome _ _ =>
      match transition.before.worker with
      | .calling delivery event traceId _ _ =>
          if event.eventId = eventId then some ⟨true, delivery.payloadJson, traceId, outcome⟩
          else none
      | _ => none
  | _ => none

/-- The calls for an event end in the order of the run. -/
def callEnds (eventId : String) (trace : Trace Process EventGateway.Action) : List CallEnd :=
  trace.filterMap (callEnd eventId)

/-- The service is unavailable to the call. -/
def CallEnd.Unavailable (call : CallEnd) : Prop :=
  ∃ message, call.outcome = .unavailable message

/-- The Account Service answers the call on one database and leaves the next one. -/
def CallEnd.AnsweredBy (environment : Environment) (db next : AccountService.Database)
    (call : CallEnd) : Prop :=
  ∃ fresh response, call.outcome = .response response ∧
    let handled := handle environment (environment.path call.payload.accountId) call.payload
      (normalizeTraceId (some call.traceId) fresh) db
    handled.1 = next ∧ handled.2.status = response.statusCode

/-- A submit stores the command as a new event, and from there the calls for it end as listed. -/
def Delivers (environment : Environment) (command : EventCreate) (ends : List CallEnd)
    (last : Process) : Prop :=
  ∃ first i traceId event trace,
    (gateway environment.gatewayStorage environment.settings).Reachable first ∧
    first.submits i = .stored ⟨command, traceId⟩ event ∧
    (gateway environment.gatewayStorage environment.settings).Runs first last trace ∧
    callEnds command.eventId trace = ends

/-- The synchronous call is answered. -/
def AnsweredAtOnce (environment : Environment) (command : EventCreate)
    (db next : AccountService.Database) (last : Process) : Prop :=
  ∃ call, Delivers environment command [call] last ∧ call.queued = false ∧
    call.AnsweredBy environment db next

/-- The synchronous call and a number of attempts of the worker find the service unavailable, and the
next attempt is answered. -/
def AnsweredFromQueue (environment : Environment) (command : EventCreate) (retries : Nat)
    (db next : AccountService.Database) (last : Process) : Prop :=
  ∃ refused retried call, Delivers environment command (refused :: retried ++ [call]) last ∧
    refused.queued = false ∧ refused.Unavailable ∧ retried.length = retries ∧
    (∀ retry ∈ retried, retry.queued ∧ retry.Unavailable) ∧
    call.queued ∧ call.AnsweredBy environment db next

/-- The Account Service writes the same rows and answers alike under every trace id. -/
theorem handle_alike (environment : Environment) (accountId : String) (body : Payload)
    (first second : String) (db : AccountService.Database) :
    let handled := handle environment accountId body first db
    let rehandled := handle environment accountId body second db
    handled.1.accounts = rehandled.1.accounts ∧
      handled.1.transactions = rehandled.1.transactions ∧ handled.2 = rehandled.2 := by
  unfold handle
  split
  · exact ⟨rfl, rfl, rfl⟩
  · next command _ =>
      exact AccountService.Request.apply_alike environment.accountStorage accountId command first
        second db

section Step
variable {storage : Storage} {settings : Settings} {eventId : String}

/-- Every action that ends a call for the event reports what the process carries. -/
theorem callEnd_cases (reached : (gateway storage settings).Reachable process)
    (taken : process.step storage settings action = some after) (eventId : String) :
    (callEnd eventId ⟨process, action, after⟩ = none ∧ process.delivers eventId action = none) ∨
      ∃ call, callEnd eventId ⟨process, action, after⟩ = some call ∧
        process.delivers eventId action = some call.queued ∧ action.ended = some call.outcome ∧
        process.Carries call.payload ∧ call.payload.eventId = eventId := by
  cases action with
  | resume i outcome now =>
      cases awaits : process.submits i with
      | calling submission event =>
          by_cases own : submission.command.eventId = eventId
          · exact .inr ⟨⟨false, submission.payload, submission.traceId, outcome⟩,
              by simp [callEnd, awaits, own],
              by simp [Process.delivers, awaits, Submit.owned, own], rfl,
              .inl ⟨i, submission, event, by rw [awaits]; rfl, rfl⟩, own⟩
          · exact .inl ⟨by simp [callEnd, awaits, own],
              by simp [Process.delivers, awaits, Submit.owned, own]⟩
      | stored => simp [Process.step, Submit.resume, awaits] at taken
      | idle | received | inserting | conflicted | recording | answered =>
          exact .inl ⟨by simp [callEnd, awaits], by simp [Process.delivers, awaits, Submit.owned]⟩
  | deliver outcome now draw =>
      cases awaits : process.worker with
      | calling delivery event traceId remaining processed =>
          have held : process.worker.held = some (delivery, event) := by rw [awaits]; rfl
          have current := ((consistent_of_reachable reached).current delivery event held).2
          by_cases own : event.eventId = eventId
          · exact .inr ⟨⟨true, delivery.payloadJson, traceId, outcome⟩,
              by simp [callEnd, awaits, own], by simp [Process.delivers, held, own], rfl,
              .inr ⟨event.eventId, delivery, congrArg Entry.delivery current, rfl⟩,
              (eventId_of_held reached held).symm.trans own⟩
          · exact .inl ⟨by simp [callEnd, awaits, own], by simp [Process.delivers, held, own]⟩
      | idle | passing =>
          exact .inl ⟨by simp [callEnd, awaits], by simp [Process.delivers, awaits, Worker.held]⟩
  | arrive | advance | poll | take | rest | crash => exact .inl ⟨rfl, rfl⟩

/-- After a submit stored its event, the process carries only its payload for the event. -/
theorem carries_of_stored (reached : (gateway storage settings).Reachable process) {i : Nat}
    {event : Event} (stored : process.submits i = .stored submission event) {payload : Payload}
    (carried : process.Carries payload) (own : payload.eventId = submission.command.eventId) :
    payload = submission.payload := by
  have consistent := consistent_of_reachable reached
  have owned : (process.submits i).owned = some (submission, event) := by rw [stored]; rfl
  rcases carried with ⟨j, other, held, kept, rfl⟩ | ⟨eventId, delivery, queued, rfl⟩
  · obtain rfl := consistent.distinct j i _ _ kept owned own
    obtain ⟨rfl, _⟩ := Prod.mk.inj (Option.some.inj (kept.symm.trans owned))
    rfl
  · obtain ⟨row, present, _⟩ := (consistent.valid eventId).mp (by simp [Database.entry, queued])
    obtain ⟨_, _, holds⟩ := matching_of_reachable reached eventId row delivery present queued
    have same : eventId = submission.command.eventId :=
      (Table.key_of_get present).symm.trans (holds.eventId.trans own)
    have absent := congrArg Entry.delivery (consistent.owns i submission event owned).2
    rw [← same] at absent
    cases absent.symm.trans queued

end Step

/-- The calls for an event all carry its payload, and the last of them decides its status. -/
structure Tracked (environment : Environment) (submission : Submission) (process : Process)
    (ends : List CallEnd) : Prop where
  keeps : process.db.Keeps environment.gatewayStorage submission
  carried : ∀ payload, process.Carries payload →
    payload.eventId = submission.command.eventId → payload = submission.payload
  sent : ∀ call ∈ ends, call.payload = submission.payload
  status : ∀ call, ends.getLast? = some call → ∃ event,
    process.db.events.get submission.command.eventId = some event ∧
      event.processingStatus = if call.queued then deliveredStatus call.outcome
        else settledStatus environment.settings call.outcome

section Tracked
variable {trace : Trace Process EventGateway.Action} {ends : List CallEnd}

/-- A step that ends no call for the event keeps the calls and the status. -/
theorem Tracked.silent (tracked : Tracked environment submission process ends)
    (consistent : process.Consistent environment.gatewayStorage)
    (taken : process.step environment.gatewayStorage environment.settings action = some after)
    (other : process.delivers submission.command.eventId action = none) (call : CallEnd)
    (last : ends.getLast? = some call) : ∃ event,
      after.db.events.get submission.command.eventId = some event ∧
        event.processingStatus = if call.queued then deliveredStatus call.outcome
          else settledStatus environment.settings call.outcome := by
  obtain ⟨event, present, status⟩ := tracked.status call last
  obtain ⟨later, found, same⟩ := (consistent.undelivered taken other).1 event present
  exact ⟨later, found, same.trans status⟩

/-- A step carries no new payload for a stored event. -/
theorem Tracked.carries (tracked : Tracked environment submission process ends)
    (consistent : process.Consistent environment.gatewayStorage)
    (taken : process.step environment.gatewayStorage environment.settings action = some after)
    {payload : Payload} (carried : after.Carries payload)
    (own : payload.eventId = submission.command.eventId) : payload = submission.payload := by
  rcases consistent.carries taken with old | ⟨fresh, ⟨_, _, _, _, absent, _⟩, old⟩
  · exact tracked.carried payload (old payload carried) own
  · rcases old payload carried with earlier | rfl
    · exact tracked.carried payload earlier own
    · obtain ⟨status, present⟩ := tracked.keeps
      rw [own, present] at absent
      cases absent

theorem Tracked.step (tracked : Tracked environment submission process ends)
    (reached : (gateway environment.gatewayStorage environment.settings).Reachable process)
    (taken : process.step environment.gatewayStorage environment.settings action = some after) :
    Tracked environment submission after
      (ends ++ (callEnd submission.command.eventId ⟨process, action, after⟩).toList) := by
  have consistent := consistent_of_reachable reached
  have keeps := tracked.keeps.moves (consistent.step taken).2
  have carried (payload : Payload) (sent : after.Carries payload)
      (own : payload.eventId = submission.command.eventId) : payload = submission.payload :=
    tracked.carries consistent taken sent own
  rcases callEnd_cases reached taken submission.command.eventId with
    ⟨none, other⟩ | ⟨call, some, delivers, ended, sent, own⟩
  · rw [none, Option.toList_none, List.append_nil]
    exact ⟨keeps, carried, tracked.sent, tracked.silent consistent taken other⟩
  · rw [some, Option.toList_some]
    refine ⟨keeps, carried, fun other member => ?_, fun other last => ?_⟩
    · rcases List.mem_append.mp member with old | new
      · exact tracked.sent other old
      · rw [List.mem_singleton.mp new]
        exact tracked.carried call.payload sent own
    · obtain rfl := Option.some.inj (List.getLast?_concat.symm.trans last)
      obtain ⟨outcome, event, same, present, status, _⟩ := consistent.delivered taken delivers
      obtain rfl := Option.some.inj (ended.symm.trans same)
      exact ⟨event, present, status⟩

theorem tracked_of_runs {first : Process} {i : Nat} {event : Event}
    (reached : (gateway environment.gatewayStorage environment.settings).Reachable first)
    (stored : first.submits i = .stored submission event)
    (runs : (gateway environment.gatewayStorage environment.settings).Runs first last trace) :
    Tracked environment submission last (callEnds submission.command.eventId trace) := by
  induction runs with
  | refl =>
      exact ⟨keeps_of_stored reached stored .refl,
        fun payload carried own => carries_of_stored reached stored carried own,
        fun call member => (by cases member), fun call last => by cases last⟩
  | step action earlier taken ih =>
      have tracked := ih.step (earlier.reachable reached) taken
      rwa [callEnds, filterMap_concat]

end Tracked

/-- The answer to the last call decides the status of the event, which leaves the queue. -/
theorem Delivers.answered {command : EventCreate} {ends : List CallEnd} {call : CallEnd}
    {db next : AccountService.Database}
    (delivers : Delivers environment command (ends ++ [call]) last)
    (answered : call.AnsweredBy environment db next) : ∃ fresh,
      let submission := Submission.mk command call.traceId
      let handled := handle environment (environment.path submission.payload.accountId)
        submission.payload (normalizeTraceId (some call.traceId) fresh) db
      handled.1 = next ∧ last.db.entry command.eventId =
        ⟨some ((submission.row environment.gatewayStorage).withStatus
          (if 400 ≤ handled.2.status then .failed else .applied)), none⟩ := by
  obtain ⟨first, i, traceId, event, trace, reached, stored, runs, same⟩ := delivers
  obtain ⟨fresh, response, outcome, ledger, code⟩ := answered
  have tracked := tracked_of_runs reached stored runs
  simp only [same] at tracked
  have sent : call.payload = (Submission.mk command call.traceId).payload :=
    tracked.sent call (List.mem_append_right ends List.mem_cons_self)
  rw [sent] at ledger code
  obtain ⟨row, present, status⟩ := tracked.status call List.getLast?_concat
  obtain ⟨kept, found⟩ := tracked.keeps
  obtain rfl := Option.some.inj (present.symm.trans found)
  have decided : kept = if 400 ≤ response.statusCode then .failed else .applied := by
    rw [outcome] at status
    exact status.trans (ite_self _)
  have unqueued : kept ≠ .queued := by
    rw [decided]
    split <;> decide
  have valid := (consistent_of_reachable (runs.reachable reached)).valid command.eventId
  rw [Database.entry, show last.db.events.get command.eventId = _ from found] at valid
  refine ⟨fresh, ledger, ?_⟩
  rw [code, ← decided]
  exact Entry.ext found (valid.unqueued unqueued)

/-- The queued path and the synchronous path agree: they leave the same event in the same final
status, and the same rows in the ledger. -/
theorem queued_path_agrees (environment : Environment) (command : EventCreate) (retries : Nat)
    {db syncLedger queuedLedger : AccountService.Database} {syncLast queuedLast : Process}
    (synchronous : AnsweredAtOnce environment command db syncLedger syncLast)
    (queued : AnsweredFromQueue environment command retries db queuedLedger queuedLast) :
    ∃ event : Event, event.processingStatus.final ∧
      syncLast.db.entry command.eventId = ⟨some event, none⟩ ∧
      queuedLast.db.entry command.eventId = ⟨some event, none⟩ ∧
      queuedLedger.accounts = syncLedger.accounts ∧
      queuedLedger.transactions = syncLedger.transactions := by
  obtain ⟨call, direct, _, answered⟩ := synchronous
  obtain ⟨refused, retried, late, behind, _, _, _, _, _, lateAnswered⟩ := queued
  have direct : Delivers environment command ([] ++ [call]) syncLast := direct
  obtain ⟨fresh, rfl, entry⟩ := direct.answered answered
  obtain ⟨lateFresh, rfl, lateEntry⟩ := behind.answered lateAnswered
  obtain ⟨accounts, transactions, answer⟩ := handle_alike environment
    (environment.path (Submission.mk command call.traceId).payload.accountId)
    (Submission.mk command call.traceId).payload (normalizeTraceId (some late.traceId) lateFresh)
    (normalizeTraceId (some call.traceId) fresh) db
  refine ⟨_, ?_, entry, ?_, accounts, transactions⟩
  · show ProcessingStatus.final (if _ then .failed else .applied)
    split <;> rfl
  · rw [← answer]
    exact lateEntry

/-- A run from the initial state to a stored event and a run from there deliver the event. -/
theorem delivers_of_run (environment : Environment) (command : EventCreate) (i : Nat)
    (opening actions : List EventGateway.Action) {traceId : String} {event : Event}
    {ends : List CallEnd}
    (ran : ((gateway environment.gatewayStorage environment.settings).run
        (gateway environment.gatewayStorage environment.settings).initial opening).bind
      (fun first => ((gateway environment.gatewayStorage environment.settings).traced.run
          (first, []) actions).map
        fun observed => (first.submits i, callEnds command.eventId observed.2)) =
      some (.stored ⟨command, traceId⟩ event, ends)) :
    ∃ last, Delivers environment command ends last := by
  obtain ⟨first, opened, followed⟩ := Option.bind_eq_some_iff.mp ran
  obtain ⟨⟨last, trace⟩, traced, observed⟩ := Option.map_eq_some_iff.mp followed
  obtain ⟨stored, ends⟩ := Prod.mk.inj observed
  exact ⟨last, first, i, traceId, event, trace, Machine.reachable_of_run opening .initial opened,
    stored, Machine.runs_of_traced .refl traced, ends⟩

/-- A submit stores the event and comes to its await. -/
def storedSubmit : List EventGateway.Action :=
  [.arrive 0 ⟨creditX.event, "trace"⟩, .advance 0, .advance 0]

def answeredAtOnce : List EventGateway.Action :=
  [.advance 0, .resume 0 (.response ⟨201, "application/json", some "", none⟩) 0, .advance 0]

/-- The call and the first attempt of the worker fail. -/
def answeredFromQueue : List EventGateway.Action :=
  [.advance 0, .resume 0 (.unavailable "timeout") 0, .poll 0, .take "fresh",
    .deliver (.unavailable "timeout") 0 .zero, .rest, .poll 100, .take "fresh",
    .deliver (.response ⟨201, "application/json", some "", none⟩) 100 .zero, .rest]

/-- A call for the event ends with a created transaction or without an answer. -/
def answeredEnd (queued : Bool) : CallEnd :=
  ⟨queued, creditX.body, "trace", .response ⟨201, "application/json", some "", none⟩⟩

def unavailableEnd (queued : Bool) : CallEnd :=
  ⟨queued, creditX.body, "trace", .unavailable "timeout"⟩

theorem unavailableEnd_unavailable (queued : Bool) : (unavailableEnd queued).Unavailable :=
  ⟨"timeout", rfl⟩

theorem queued_path_agrees_retried : ∃ syncLedger queuedLedger syncLast queuedLast,
    AnsweredAtOnce wallClockEnvironment creditX.event .empty syncLedger syncLast ∧
    AnsweredFromQueue wallClockEnvironment creditX.event 1 .empty queuedLedger queuedLast ∧
    ∃ event : Event, event.processingStatus.final ∧
      syncLast.db.entry "x" = ⟨some event, none⟩ ∧ queuedLast.db.entry "x" = ⟨some event, none⟩ ∧
      queuedLedger.accounts = syncLedger.accounts ∧
      queuedLedger.transactions = syncLedger.transactions := by
  have created : (handle wallClockEnvironment "a" creditX.body (normalizeTraceId (some "trace") "fresh")
      .empty).2.status = 201 := by decide +kernel
  have answered (queued : Bool) :
      (answeredEnd queued).AnsweredBy wallClockEnvironment .empty _ := ⟨"fresh", _, rfl, rfl, created⟩
  have direct : ∃ last, Delivers wallClockEnvironment creditX.event [answeredEnd false] last :=
    delivers_of_run wallClockEnvironment creditX.event 0 storedSubmit answeredAtOnce rfl
  have behind : ∃ last, Delivers wallClockEnvironment creditX.event
      (unavailableEnd false :: [unavailableEnd true] ++ [answeredEnd true]) last :=
    delivers_of_run wallClockEnvironment creditX.event 0 storedSubmit answeredFromQueue
      (by with_unfolding_all rfl)
  obtain ⟨syncLast, direct⟩ := direct
  obtain ⟨queuedLast, behind⟩ := behind
  have synchronous : AnsweredAtOnce wallClockEnvironment creditX.event .empty _ syncLast :=
    ⟨_, direct, rfl, answered false⟩
  have queued : AnsweredFromQueue wallClockEnvironment creditX.event 1 .empty _ queuedLast :=
    ⟨_, _, _, behind, rfl, unavailableEnd_unavailable false, rfl,
      List.forall_mem_singleton.mpr ⟨rfl, unavailableEnd_unavailable true⟩, rfl, answered true⟩
  exact ⟨_, _, syncLast, queuedLast, synchronous, queued,
    queued_path_agrees wallClockEnvironment creditX.event 1 synchronous queued⟩

end EventLedger.Delivery
