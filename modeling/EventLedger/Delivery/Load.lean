import EventLedger.Delivery.ExactlyOnce
import EventLedger.EventGateway.QueueAudit
import EventLedger.EventGateway.Classification
import EventLedger.EventGateway.ConcurrentSubmits

namespace EventLedger.Delivery
open Library Python EventGateway

variable {environment : Environment} {system next : System} {action : Delivery.Action}
  {eventId : String} {trace : Trace System Delivery.Action}

/-- The requests that the Gateway has sent for one event. -/
def System.requests (system : System) (eventId : String) : Nat :=
  (system.network.map Message.payload).countP fun payload => decide (payload.eventId = eventId)

/-- The queue records of one event. -/
def System.recorded (system : System) (eventId : String) : Nat :=
  (queueRecords system.gateway.db.audit eventId).length

/-- A caller is at its await for one event. -/
def System.opens (system : System) (eventId : String) (caller : Caller) : Bool :=
  (calling system.gateway caller).any fun call => decide (call.1.eventId = eventId)

/-- The calls of a run are those of the worker and of the submits that have arrived. -/
def callers (trace : Trace System Delivery.Action) : List Caller :=
  .worker :: trace.filterMap fun transition =>
    match transition.action with
    | .arrive i _ _ _ => some (.submit i)
    | _ => none

/-- A crash cuts off the open call of an event, and an exception that the client lets through cuts
off its own call. -/
def Lost (eventId : String) (callers : List Caller)
    (transition : Transition System Delivery.Action) : Bool :=
  match transition.action with
  | .crash => callers.any (transition.before.opens eventId)
  | .resume caller _ _ =>
      match transition.before.clients caller with
      | .finished .raised => transition.before.opens eventId caller
      | _ => false
  | _ => false

/-- The steps of a run that have cut off a call of one event. -/
def lostCalls (eventId : String) (trace : Trace System Delivery.Action) : Nat :=
  trace.countP (Lost eventId (callers trace))

section Ended

/-- A call that has ended has settled its event or has written a queue record. -/
def endedCalls (db : EventGateway.Database) (eventId : String) : Nat :=
  max (queueRecords db.audit eventId).length
    (match db.events.get eventId with
      | some event => if event.processingStatus = .pending then 0 else 1
      | none => 0)

theorem endedCalls_le (db : EventGateway.Database) (eventId : String) :
    endedCalls db eventId ≤ (queueRecords db.audit eventId).length + 1 := by
  unfold endedCalls
  split
  · split <;> omega
  · omega

variable {storage : Storage} {settings : Settings} {process after : Process}
  {inner : EventGateway.Action}

/-- No step takes back the end of a call. -/
theorem endedCalls_mono (reached : (gateway storage settings).Reachable process)
    (taken : process.step storage settings inner = some after) (eventId : String) :
    endedCalls process.db eventId ≤ endedCalls after.db eventId := by
  have audited := audited_of_reachable reached
  obtain ⟨written, records, _⟩ := audited.logs taken eventId
  unfold endedCalls
  refine max_le_max ?_ ?_
  · rw [records, List.length_append]
    exact Nat.le_add_right _ _
  · cases present : process.db.events.get eventId with
    | none => exact Nat.zero_le _
    | some event =>
        obtain ⟨later, found, _, same | changed⟩ :=
          (audited.consistent.step taken).2.advances present
        · simp only [found, same, le_refl]
        · have settled : later.processingStatus ≠ .pending := by
            intro pending
            rw [pending] at changed
            cases status : event.processingStatus <;> rw [status] at changed <;> cases changed
          simp only [found, if_neg settled]
          split <;> omega

/-- A pending event has no queue record. -/
theorem endedCalls_of_pending (reached : (gateway storage settings).Reachable process)
    {submission : Submission}
    (pending : process.db.entry submission.command.eventId =
      ⟨some (submission.row storage), none⟩) :
    queueRecords process.db.audit submission.command.eventId = [] ∧
      endedCalls process.db submission.command.eventId = 0 := by
  have life := (audited_of_reachable reached).lives submission.command.eventId
  rw [pending] at life
  have empty := life.of_row
  have present : process.db.events.get submission.command.eventId = some (submission.row storage) :=
    congrArg Entry.event pending
  refine ⟨empty, ?_⟩
  simp [endedCalls, empty, present, Submission.row, Event.stored, Submission.event]

/-- A waiting event has its first queue record. -/
theorem records_of_waits {k : Nat} {records : List AuditRecord} (waits : Waits k records) :
    1 ≤ records.length := by
  cases waits with
  | queued => exact le_refl 1
  | retried => simp

/-- A queued event has a queue record for each call that has ended. -/
theorem endedCalls_of_queued (reached : (gateway storage settings).Reachable process)
    {event : Event} {delivery : PendingDelivery}
    (current : process.db.entry event.eventId = ⟨some event, some delivery⟩) :
    endedCalls process.db event.eventId = (queueRecords process.db.audit event.eventId).length := by
  have life := (audited_of_reachable reached).lives event.eventId
  rw [current] at life
  have recorded : 1 ≤ (queueRecords process.db.audit event.eventId).length := by
    cases life with
    | waiting _ waits => exact records_of_waits waits
  refine max_eq_left (le_trans ?_ recorded)
  split
  · split <;> omega
  · omega

/-- While a call of an event is open, each call that has ended has written a queue record. -/
theorem endedCalls_of_calling (reached : (gateway storage settings).Reachable process)
    {caller : Caller} {payload : Payload} {traceId : String}
    (calls : calling process caller = some (payload, traceId)) :
    endedCalls process.db payload.eventId =
      (queueRecords process.db.audit payload.eventId).length := by
  have consistent := consistent_of_reachable reached
  cases calls_of_calling calls with
  | submit i submission event awaits =>
      obtain ⟨rfl, pending⟩ := consistent.owns i submission event (by rw [awaits]; rfl)
      obtain ⟨empty, ended⟩ := endedCalls_of_pending reached pending
      exact ended.trans (congrArg List.length empty).symm
  | worker delivery event _ _ _ awaits =>
      have held : process.worker.held = some (delivery, event) := by rw [awaits]; rfl
      rw [← eventId_of_held reached held]
      exact endedCalls_of_queued reached (consistent.current delivery event held).2

/-- The end of the await of a submit ends a call unless its exception escapes. -/
theorem endedCalls_submit {i : Nat} {submission : Submission} {event : Event}
    {outcome : CallOutcome} {now : Rat}
    (reached : (gateway storage settings).Reachable process)
    (calls : process.submits i = .calling submission event)
    (taken : process.step storage settings (.resume i outcome now) = some after)
    (handled : outcome ≠ .raised) :
    endedCalls process.db submission.command.eventId + 1 ≤
      endedCalls after.db submission.command.eventId := by
  have consistent := consistent_of_reachable reached
  obtain ⟨rfl, pending⟩ := consistent.owns i submission event (by rw [calls]; rfl)
  rw [(endedCalls_of_pending reached pending).2]
  obtain ⟨later, step, _⟩ := Process.call_step taken rfl
  obtain ⟨own, owned, _, events⟩ := step.resumed (consistent.owns i)
  rw [calls] at owned
  obtain ⟨rfl, _⟩ := Prod.mk.inj (Option.some.inj owned)
  have settled : settledStatus settings outcome ≠ .pending := by
    cases outcome with
    | response | unavailable =>
        simp only [settledStatus]
        split <;> decide
    | raised => exact absurd rfl handled
  simp [endedCalls, events, Event.withStatus, settled]

/-- The end of an attempt of the worker writes a record unless its exception escapes. -/
theorem endedCalls_worker {delivery : PendingDelivery} {event : Event} {outcome : CallOutcome}
    {now : Rat} {draw : Draw}
    (reached : (gateway storage settings).Reachable process)
    (held : process.worker.held = some (delivery, event))
    (taken : process.step storage settings (.deliver outcome now draw) = some after)
    (handled : outcome ≠ .raised) :
    endedCalls process.db event.eventId + 1 ≤ endedCalls after.db event.eventId := by
  have consistent := consistent_of_reachable reached
  obtain ⟨own, current⟩ := consistent.current delivery event held
  have queued := Entry.Valid.queued (current ▸ consistent.valid event.eventId)
  rw [endedCalls_of_queued reached current]
  refine le_trans ?_ (le_max_left _ _)
  rcases Process.step_cases taken with ⟨_, _, step, _⟩ | ⟨step, _⟩ | ⟨crash, _⟩
  · cases step
  · generalize process.worker = before at step held
    generalize after.worker = later at step
    generalize after.db = db at step ⊢
    cases step with
    | deliver _ _ traceId _ _ _ _ _ delivered committed =>
        obtain ⟨rfl, rfl⟩ := Prod.mk.inj (Option.some.inj held)
        have audit := (Database.commit_eq_some committed).2.2
        rw [audit, queueRecords_append, List.length_append]
        cases delivered_of_deliver delivered with
        | rescheduled | rejected | applied =>
            simp [queueRecords, workerRecord, AuditAction.aboutQueue]
    | stale _ _ _ _ _ _ _ _ delivered violated =>
        obtain ⟨rfl, rfl⟩ := Prod.mk.inj (Option.some.inj held)
        exact absurd violated (deliver_commits own current queued delivered)
    | raise _ _ _ _ _ _ _ _ escaped => exact absurd (raised_of_deliver escaped) handled
  · cases crash

end Ended

section Attempts

/-- The requests that a call may have sent so far. -/
def Client.used (limit : Nat) : Client → Nat
  | .idle => 0
  | .waiting attempt _ | .sleeping attempt => attempt + 1
  | .finished _ => limit

@[simp] theorem Client.used_waiting (limit attempt tag : Nat) :
    (Client.waiting attempt tag).used limit = attempt + 1 := rfl

@[simp] theorem Client.used_sleeping (limit attempt : Nat) :
    (Client.sleeping attempt).used limit = attempt + 1 := rfl

@[simp] theorem Client.used_finished (limit : Nat) (outcome : CallOutcome) :
    (Client.finished outcome).used limit = limit := rfl

/-- A call that is not over has attempts left for what it does next. -/
def Client.Within (limit : Nat) : Client → Prop
  | .idle | .finished _ => True
  | .waiting attempt _ => attempt + 1 ≤ limit
  | .sleeping attempt => attempt + 2 ≤ limit

theorem Client.Within.used_le {limit : Nat} {client : Client} (within : client.Within limit) :
    client.used limit ≤ limit := by
  cases client with
  | idle => exact Nat.zero_le _
  | waiting => exact within
  | sleeping => exact Nat.le_of_succ_le within
  | finished => exact le_refl limit

/-- A request that goes on pays with its attempt for what it sends. -/
inductive Pays (limit : Nat) (client : Client) : ClientRequest → Prop where
  | attempting (attempt : Nat) (paid : client.used limit ≤ attempt) (left : attempt + 1 ≤ limit) :
      Pays limit client (.attempting attempt)
  | sleeping (attempt : Nat) (paid : client.used limit ≤ attempt + 1) (left : attempt + 2 ≤ limit) :
      Pays limit client (.sleeping attempt)
  | finished (outcome : CallOutcome) (paid : client.used limit ≤ limit) :
      Pays limit client (.finished outcome)

/-- A call starts with attempts left, or it has ended. -/
theorem pays_start (settings : Settings) (breaker : CircuitBreaker) (now : Rat) :
    Pays settings.accountServiceMaxAttempts.toNat .idle
      (ClientRequest.start settings breaker now) := by
  unfold ClientRequest.start
  split
  · split
    · next positive => exact .attempting 0 (Nat.zero_le _) (by omega)
    · exact .finished _ (Nat.zero_le _)
  · exact .finished _ (Nat.zero_le _)

/-- An attempt that ends leaves an attempt for the next one, or the call has ended. -/
theorem pays_attemptEnds (settings : Settings) (breaker : CircuitBreaker) (attempt tag : Nat)
    (now : Rat) (outcome : AttemptOutcome)
    (left : attempt + 1 ≤ settings.accountServiceMaxAttempts.toNat) :
    Pays settings.accountServiceMaxAttempts.toNat (.waiting attempt tag)
      (ClientRequest.attemptEnds settings breaker attempt now outcome).2 := by
  have failed (message : String) : Pays settings.accountServiceMaxAttempts.toNat
      (.waiting attempt tag)
      (ClientRequest.failed settings breaker attempt now message).2 := by
    unfold ClientRequest.failed
    split
    · exact .finished _ left
    · exact .sleeping attempt (le_refl _) (by omega)
  cases outcome with
  | response response =>
      simp only [ClientRequest.attemptEnds]
      split
      · exact failed _
      · exact .finished _ left
  | timeout message | connectError message => exact failed message
  | raised => exact .finished _ left

/-- A call that goes on and pays has attempts left. -/
theorem Pays.within {limit : Nat} {caller : Caller} {payload : Payload} {traceId : String}
    {request : ClientRequest} (pays : Pays limit (system.clients caller) request) :
    ((system.enter caller payload traceId request).clients caller).Within limit := by
  cases pays with
  | attempting attempt _ left | sleeping attempt _ left =>
      simp only [System.enter, System.setClient, Function.update_self]
      exact left
  | finished =>
      simp only [System.enter, System.setClient, Function.update_self]
      trivial

theorem System.enter_clients_of_ne {caller other : Caller} (different : other ≠ caller)
    (payload : Payload) (traceId : String) (request : ClientRequest) :
    (system.enter caller payload traceId request).clients other = system.clients other := by
  cases request with
  | attempting | sleeping | finished =>
      simp only [enter, setClient, Function.update_of_ne different]

/-- A call that goes on sends at most what it has paid for. -/
theorem Pays.requests {limit : Nat} {caller : Caller} {payload : Payload} {traceId : String}
    {request : ClientRequest} (pays : Pays limit (system.clients caller) request) :
    (system.enter caller payload traceId request).requests eventId +
        (system.clients caller).used limit ≤
      system.requests eventId +
        ((system.enter caller payload traceId request).clients caller).used limit := by
  cases pays with
  | attempting attempt paid =>
      have one : [payload].countP (fun payload => decide (payload.eventId = eventId)) ≤ 1 :=
        List.countP_le_length
      simp only [System.requests, System.enter, System.setClient, Function.update_self,
        List.map_append, List.map_cons, List.map_nil, List.countP_append, Client.used_waiting]
      omega
  | sleeping attempt paid | finished _ paid =>
      simp only [System.requests, System.enter, System.setClient, Function.update_self,
        Client.used_sleeping, Client.used_finished]
      exact Nat.add_le_add_left paid _

/-- A call for another event sends nothing for this one. -/
theorem System.enter_requests_of_ne {caller : Caller} {payload : Payload} {traceId : String}
    {request : ClientRequest} (other : payload.eventId ≠ eventId) :
    (system.enter caller payload traceId request).requests eventId = system.requests eventId := by
  cases request with
  | attempting attempt =>
      simp only [requests, enter, setClient, List.map_append, List.map_cons, List.map_nil,
        List.countP_append]
      simp [other]
  | sleeping | finished => rfl

end Attempts

section Steps

/-- This relation lists every step of the two services with what a call pays for its requests. -/
inductive System.Spends (environment : Environment) (system : System) :
    Delivery.Action → System → Prop where
  | enter (action : Delivery.Action) (caller : Caller) (payload : Payload) (traceId : String)
      (request : ClientRequest) (breaker : CircuitBreaker)
      (calls : calling system.gateway caller = some (payload, traceId))
      (pays : Pays environment.settings.accountServiceMaxAttempts.toNat (system.clients caller)
        request) :
      Spends environment system action
        ({ system with breaker := breaker }.enter caller payload traceId request)
  | act (action : Delivery.Action) (inner : EventGateway.Action) (gateway : Process)
      (stays : Local environment.unicode inner)
      (stepped : system.gateway.step environment.gatewayStorage environment.settings inner =
        some gateway) :
      Spends environment system action { system with gateway := gateway }
  | resume (caller : Caller) (outcome : CallOutcome) (now : Rat) (draw : Draw) (gateway : Process)
      (finished : system.clients caller = .finished outcome)
      (stepped : system.gateway.step environment.gatewayStorage environment.settings
        (caller.resume outcome now draw) = some gateway) :
      Spends environment system (.resume caller now draw)
        ({ system with gateway := gateway }.setClient caller .idle)
  | answer (action : Delivery.Action) (network : List Message) (account : AccountService.Database)
      (same : network.map Message.payload = system.network.map Message.payload) :
      Spends environment system action { system with network := network, account := account }
  | crash : Spends environment system .crash
      { system with
        gateway := .crashed system.gateway.db
        breaker := .closed
        clients := fun _ => .idle }

/-- The answer to a request keeps its payload. -/
theorem map_payload_set {network : List Message} {tag : Nat} {message : Message}
    (found : network[tag]? = some message) (answer : Option AccountService.Answer) :
    (network.set tag { message with answer := answer }).map Message.payload =
      network.map Message.payload := by
  obtain ⟨inside, _⟩ := List.getElem?_eq_some_iff.mp found
  apply List.ext_getElem?
  intro i
  rw [List.getElem?_map, List.getElem?_map, List.getElem?_set]
  by_cases same : tag = i
  · subst same
    rw [if_pos rfl, if_pos inside, found]
    rfl
  · rw [if_neg same]

theorem System.spends
    (within : ∀ caller, (system.clients caller).Within
      environment.settings.accountServiceMaxAttempts.toNat)
    (taken : system.step environment action = some next) :
    system.Spends environment action next := by
  cases System.step_cases taken with
  | act _ inner gateway stays stepped => exact .act action inner gateway stays stepped
  | start caller now payload traceId request idle calls =>
      simp only [System.step, idle, calls, Option.some.injEq] at taken
      rw [← taken]
      refine .enter _ caller payload traceId _ system.breaker calls ?_
      rw [idle]
      exact pays_start _ _ _
  | wake caller payload traceId attempt asleep calls =>
      have left := within caller
      rw [asleep] at left
      refine .enter _ caller payload traceId _ system.breaker calls ?_
      rw [asleep]
      exact .attempting (attempt + 1) (le_refl _) left
  | ended _ caller payload traceId attempt tag now outcome waits calls =>
      have left := within caller
      rw [waits] at left
      refine .enter action caller payload traceId _ _ calls ?_
      rw [waits]
      exact pays_attemptEnds environment.settings system.breaker attempt tag now outcome left
  | resume caller outcome now draw gateway finished stepped =>
      exact .resume caller outcome now draw gateway finished stepped
  | process tag fresh message found => exact .answer _ _ _ (map_payload_set found _)
  | direct => exact .answer _ _ _ rfl
  | crash => exact .crash

/-- Every step leaves attempts to the calls that are not over. -/
theorem System.Spends.within (spends : system.Spends environment action next)
    (within : ∀ caller, (system.clients caller).Within
      environment.settings.accountServiceMaxAttempts.toNat) (caller : Caller) :
    (next.clients caller).Within environment.settings.accountServiceMaxAttempts.toNat := by
  cases spends with
  | enter _ other payload traceId request breaker _ pays =>
      by_cases own : caller = other
      · subst own
        exact Pays.within pays
      · rw [System.enter_clients_of_ne own]
        exact within caller
  | resume other =>
      by_cases own : caller = other
      · subst own
        simp only [System.setClient, Function.update_self]
        trivial
      · simp only [System.setClient, Function.update_of_ne own]
        exact within caller
  | act | answer => exact within caller
  | crash => trivial

/-- Two open calls are never for one event. -/
theorem calling_unique {storage : Storage} {settings : Settings} {process : Process}
    (reached : (gateway storage settings).Reachable process) {first second : Caller}
    {payload other : Payload} {traceId otherId : String}
    (calls : calling process first = some (payload, traceId))
    (others : calling process second = some (other, otherId))
    (same : payload.eventId = other.eventId) : first = second := by
  have consistent := consistent_of_reachable reached
  have distinct {i : Nat} {submission : Submission} {event row : Event} {delivery : PendingDelivery}
      (awaits : process.submits i = .calling submission event)
      (held : process.worker.held = some (delivery, row))
      (own : submission.command.eventId = delivery.payloadJson.eventId) : False := by
    obtain ⟨rfl, pending⟩ := consistent.owns i submission event (by rw [awaits]; rfl)
    have current := (consistent.current delivery row held).2
    rw [eventId_of_held reached held, ← own, pending] at current
    cases congrArg Entry.delivery current
  cases calls_of_calling calls with
  | submit i submission event awaits =>
      cases calls_of_calling others with
      | submit j resubmission row again =>
          exact congrArg Caller.submit (consistent.distinct i j (submission, event)
            (resubmission, row) (by rw [awaits]; rfl) (by rw [again]; rfl) same)
      | worker delivery row _ _ _ held => exact (distinct awaits (by rw [held]; rfl) same).elim
  | worker delivery row _ _ _ held =>
      cases calls_of_calling others with
      | submit i submission event awaits =>
          exact (distinct awaits (by rw [held]; rfl) same.symm).elim
      | worker => rfl

end Steps

section Losses

theorem opens_of_calling {caller : Caller} {payload : Payload} {traceId : String}
    (calls : calling system.gateway caller = some (payload, traceId)) :
    system.opens payload.eventId caller = true := by
  simp [System.opens, calls]

theorem callers_append (trace : Trace System Delivery.Action)
    (transition : Transition System Delivery.Action) :
    callers trace ⊆ callers (trace ++ [transition]) := by
  rw [callers, callers, List.filterMap_append, ← List.cons_append]
  exact List.subset_append_left _ _

/-- More callers lose no fewer calls. -/
theorem lost_mono {fewer more : List Caller} (subset : fewer ⊆ more)
    {transition : Transition System Delivery.Action} (lost : Lost eventId fewer transition = true) :
    Lost eventId more transition = true := by
  unfold Lost at lost ⊢
  split at lost
  · obtain ⟨caller, listed, opened⟩ := List.any_eq_true.mp lost
    exact List.any_eq_true.mpr ⟨caller, subset listed, opened⟩
  · exact lost
  · exact lost

theorem lostCalls_append (eventId : String) (trace : Trace System Delivery.Action)
    (transition : Transition System Delivery.Action) :
    lostCalls eventId trace + (if Lost eventId (callers trace) transition then 1 else 0) ≤
      lostCalls eventId (trace ++ [transition]) := by
  have subset := callers_append trace transition
  have earlier : lostCalls eventId trace ≤
      trace.countP (Lost eventId (callers (trace ++ [transition]))) :=
    List.countP_mono_left fun _ _ => lost_mono subset
  have latest : (if Lost eventId (callers trace) transition then 1 else 0) ≤
      if Lost eventId (callers (trace ++ [transition])) transition then 1 else 0 := by
    split
    · next lost => rw [if_pos (lost_mono subset lost)]
    · exact Nat.zero_le _
  rw [lostCalls.eq_def eventId (trace ++ [transition]), List.countP_append, List.countP_singleton]
  exact Nat.add_le_add earlier latest

/-- Every open call is one of the calls of the run. -/
def System.Listed (system : System) (trace : Trace System Delivery.Action) : Prop :=
  ∀ i, system.gateway.submits i ≠ .idle → Caller.submit i ∈ callers trace

theorem System.Listed.calling (listed : system.Listed trace) {caller : Caller} {payload : Payload}
    {traceId : String} (calls : calling system.gateway caller = some (payload, traceId)) :
    caller ∈ callers trace := by
  cases calls_of_calling calls with
  | submit i submission event awaits => exact listed i (by rw [awaits]; simp)
  | worker => exact List.mem_cons_self

/-- Only the arrival of a submit takes the gateway process to an arrival. -/
theorem System.step_arrives (taken : system.step environment action = some next) :
    next.gateway = system.gateway ∨ ∃ inner, system.gateway.step environment.gatewayStorage
      environment.settings inner = some next.gateway ∧ ∀ i submission, inner = .arrive i submission →
        ∃ body metadata traceId, action = .arrive i body metadata traceId := by
  cases action with
  | arrive i body metadata traceId =>
      obtain ⟨command, _, acted⟩ := Option.bind_eq_some_iff.mp taken
      obtain ⟨gateway, stepped, rfl⟩ := Option.map_eq_some_iff.mp acted
      refine .inr ⟨_, stepped, fun j submission same => ?_⟩
      cases same
      exact ⟨body, metadata, traceId, rfl⟩
  | advance | poll | take | rest =>
      obtain ⟨gateway, stepped, rfl⟩ := Option.map_eq_some_iff.mp taken
      exact .inr ⟨_, stepped, fun _ _ same => by cases same⟩
  | resume caller now draw =>
      simp only [System.step] at taken
      split at taken
      · obtain ⟨acted, actedTo, rfl⟩ := Option.map_eq_some_iff.mp taken
        obtain ⟨gateway, stepped, rfl⟩ := Option.map_eq_some_iff.mp actedTo
        exact .inr ⟨_, stepped, fun _ _ same => by cases caller <;> cases same⟩
      · cases taken
  | call | wake =>
      simp only [System.step] at taken
      split at taken
      · obtain rfl := Option.some.inj taken
        exact .inl (System.enter_gateway ..)
      · cases taken
  | receive | interrupt =>
      left
      simp only [System.step] at taken
      repeat' split at taken
      all_goals first
        | exact Option.some.inj taken ▸ System.endAttempt_gateway ..
        | cases taken
  | process =>
      left
      simp only [System.step] at taken
      repeat' split at taken
      all_goals first
        | exact Option.some.inj taken ▸ rfl
        | cases taken
  | direct => exact .inl (Option.some.inj taken ▸ rfl)
  | crash =>
      obtain rfl := Option.some.inj taken
      exact .inr ⟨.crash, rfl, fun _ _ same => by cases same⟩

/-- A submit that has not arrived stays idle in every other step of the process. -/
theorem Process.step_idle {storage : Storage} {settings : Settings} {process after : Process}
    {inner : EventGateway.Action} {i : Nat}
    (taken : process.step storage settings inner = some after) (idle : process.submits i = .idle)
    (other : ∀ submission, inner ≠ .arrive i submission) : after.submits i = .idle := by
  rcases Process.step_cases taken with ⟨j, submit, step, submits, _⟩ | ⟨_, submits⟩ | ⟨_, rfl⟩
  · rw [submits]
    by_cases same : i = j
    · subst same
      rw [idle] at step
      generalize after.db = db at step
      cases step with
      | arrive submission => exact absurd rfl (other submission)
    · rwa [Function.update_of_ne same]
  · rwa [submits]
  · rfl

theorem System.Listed.step (listed : system.Listed trace)
    (taken : system.step environment action = some next) :
    next.Listed (trace ++ [⟨system, action, next⟩]) := by
  intro i busy
  by_cases idle : system.gateway.submits i = .idle
  · rcases System.step_arrives taken with same | ⟨inner, stepped, arrives⟩
    · exact absurd (same ▸ idle) busy
    · by_cases arrived : ∃ submission, inner = .arrive i submission
      · obtain ⟨submission, own⟩ := arrived
        obtain ⟨body, metadata, traceId, rfl⟩ := arrives i submission own
        simp [callers]
      · exact absurd (Process.step_idle stepped idle (not_exists.mp arrived)) busy
  · exact callers_append _ _ (listed i idle)

end Losses

section Paid

/-- The calls of one event that are over by the end of a run. -/
def System.completed (system : System) (eventId : String) (trace : Trace System Delivery.Action) :
    Nat :=
  endedCalls system.gateway.db eventId + lostCalls eventId trace

/-- No call of the event is open. -/
def System.Quiet (system : System) (eventId : String) : Prop :=
  ∀ caller payload traceId, calling system.gateway caller = some (payload, traceId) →
    payload.eventId ≠ eventId

theorem System.quiet_or_calls (system : System) (eventId : String) : system.Quiet eventId ∨
    ∃ caller payload traceId, calling system.gateway caller = some (payload, traceId) ∧
      payload.eventId = eventId := by
  by_cases quiet : system.Quiet eventId
  · exact .inl quiet
  · unfold Quiet at quiet
    push Not at quiet
    exact .inr quiet

/-- The calls that are over and the open call have paid for every request of the event. -/
structure System.Paid (limit : Nat) (system : System) (trace : Trace System Delivery.Action)
    (eventId : String) : Prop where
  during : ∀ caller payload traceId, calling system.gateway caller = some (payload, traceId) →
    payload.eventId = eventId →
      system.requests eventId ≤
        limit * system.completed eventId trace + (system.clients caller).used limit
  between : system.Quiet eventId →
    system.requests eventId ≤ limit * system.completed eventId trace

variable {limit : Nat} {later : Trace System Delivery.Action}

/-- With a call to spare, every request of the event is paid for. -/
theorem System.Paid.le (paid : system.Paid limit trace eventId)
    (within : ∀ caller, (system.clients caller).Within limit) :
    system.requests eventId ≤ limit * (system.completed eventId trace + 1) := by
  rw [Nat.mul_succ]
  rcases system.quiet_or_calls eventId with quiet | ⟨caller, payload, traceId, calls, own⟩
  · exact le_trans (paid.between quiet) (Nat.le_add_right _ _)
  · exact le_trans (paid.during caller payload traceId calls own)
      (Nat.add_le_add_left (within caller).used_le _)

/-- A call that is over has paid for everything. -/
theorem System.Paid.of_completed
    (paid : next.requests eventId ≤ limit * next.completed eventId later) :
    next.Paid limit later eventId :=
  ⟨fun _ _ _ _ _ => le_trans paid (Nat.le_add_right _ _), fun _ => paid⟩

/-- A step that sends nothing for the event and keeps its open call keeps its requests paid. -/
theorem System.Paid.frame (paid : system.Paid limit trace eventId)
    (reached : (twoServices environment).Reachable next)
    (requests : next.requests eventId = system.requests eventId)
    (grown : system.completed eventId trace ≤ next.completed eventId later)
    (kept : ∀ caller payload traceId, calling system.gateway caller = some (payload, traceId) →
      payload.eventId = eventId → calling next.gateway caller = some (payload, traceId) ∧
        next.clients caller = system.clients caller) : next.Paid limit later eventId := by
  have grows := Nat.mul_le_mul_left limit grown
  rcases system.quiet_or_calls eventId with quiet | ⟨caller, payload, traceId, calls, own⟩
  · exact .of_completed (requests ▸ le_trans (paid.between quiet) grows)
  · obtain ⟨opened, client⟩ := kept caller payload traceId calls own
    have bound := paid.during caller payload traceId calls own
    refine ⟨fun other payload' traceId' calls' own' => ?_, fun none => ?_⟩
    · obtain rfl := calling_unique (gateway_reachable reached) opened calls' (own.trans own'.symm)
      rw [requests, client]
      exact le_trans bound (Nat.add_le_add_right grows _)
    · exact absurd own (none caller payload traceId opened)

/-- A call that goes on keeps the requests of every event paid. -/
theorem System.Paid.enter {caller : Caller} {payload : Payload} {traceId : String}
    {request : ClientRequest} {breaker : CircuitBreaker} (paid : system.Paid limit trace eventId)
    (reached : (twoServices environment).Reachable system)
    (entered : (twoServices environment).Reachable
      ({ system with breaker := breaker }.enter caller payload traceId request))
    (calls : calling system.gateway caller = some (payload, traceId))
    (pays : Pays limit (system.clients caller) request)
    (grown : system.completed eventId trace ≤
      ({ system with breaker := breaker }.enter caller payload traceId request).completed
        eventId later) :
    ({ system with breaker := breaker }.enter caller payload traceId request).Paid limit later
      eventId := by
  by_cases own : payload.eventId = eventId
  · have grows := Nat.mul_le_mul_left limit grown
    have bound := paid.during caller payload traceId calls own
    have sent : ({ system with breaker := breaker }.enter caller payload traceId request).requests
          eventId + (system.clients caller).used limit ≤ system.requests eventId +
        (({ system with breaker := breaker }.enter caller payload traceId request).clients
          caller).used limit := Pays.requests pays
    refine ⟨fun other payload' traceId' calls' own' => ?_, fun none => ?_⟩
    · rw [System.enter_gateway] at calls'
      obtain rfl := calling_unique (gateway_reachable reached) calls calls' (own.trans own'.symm)
      omega
    · exact absurd own (none caller payload traceId (by rw [System.enter_gateway]; exact calls))
  · refine paid.frame entered (System.enter_requests_of_ne own) grown
      fun other payload' traceId' calls' own' => ⟨by rw [System.enter_gateway]; exact calls', ?_⟩
    refine System.enter_clients_of_ne ?_ payload traceId request
    rintro rfl
    obtain ⟨rfl, _⟩ := Prod.mk.inj (Option.some.inj (calls.symm.trans calls'))
    exact own own'

/-- The end of a call ends a call of its event, or it is lost. -/
theorem over_resume {caller : Caller} {outcome : CallOutcome} {now : Rat} {draw : Draw}
    {gateway : Process} {payload : Payload} {traceId : String}
    (reached : (twoServices environment).Reachable system)
    (calls : calling system.gateway caller = some (payload, traceId))
    (finished : system.clients caller = .finished outcome)
    (stepped : system.gateway.step environment.gatewayStorage environment.settings
      (caller.resume outcome now draw) = some gateway) :
    system.completed payload.eventId trace + 1 ≤
      ({ system with gateway := gateway }.setClient caller .idle).completed payload.eventId
        (trace ++ [Transition.mk system (Delivery.Action.resume caller now draw)
          ({ system with gateway := gateway }.setClient caller .idle)]) := by
  have reachable := gateway_reachable reached
  have grows := endedCalls_mono reachable stepped payload.eventId
  have losses := lostCalls_append payload.eventId trace
    ⟨system, .resume caller now draw,
      ({ system with gateway := gateway }.setClient caller .idle)⟩
  simp only [System.completed, System.setClient] at losses ⊢
  by_cases raised : outcome = .raised
  · subst raised
    simp only [Lost, finished, opens_of_calling calls, if_true] at losses
    omega
  · have ended : endedCalls system.gateway.db payload.eventId + 1 ≤
        endedCalls gateway.db payload.eventId := by
      cases calls_of_calling calls with
      | submit i submission event awaits => exact endedCalls_submit reachable awaits stepped raised
      | worker delivery event _ _ _ awaits =>
          have held : system.gateway.worker.held = some (delivery, event) := by rw [awaits]; rfl
          rw [← eventId_of_held reachable held]
          exact endedCalls_worker reachable held stepped raised
    omega

/-- Every step keeps the requests of every event paid. -/
theorem System.Spends.paid (spends : system.Spends environment action next)
    (within : ∀ caller, (system.clients caller).Within
      environment.settings.accountServiceMaxAttempts.toNat)
    (reached : (twoServices environment).Reachable system)
    (after : (twoServices environment).Reachable next)
    (listed : system.Listed trace)
    (paid : system.Paid environment.settings.accountServiceMaxAttempts.toNat trace eventId) :
    next.Paid environment.settings.accountServiceMaxAttempts.toNat
      (trace ++ [⟨system, action, next⟩]) eventId := by
  have grown {last : System} (ended : endedCalls system.gateway.db eventId ≤
      endedCalls last.gateway.db eventId) (transition : Transition System Delivery.Action) :
      system.completed eventId trace ≤ last.completed eventId (trace ++ [transition]) := by
    have losses := lostCalls_append eventId trace transition
    simp only [System.completed]
    omega
  cases spends with
  | enter _ caller payload traceId request breaker calls pays =>
      exact paid.enter reached after calls pays (grown (by rw [System.enter_gateway]) _)
  | act _ inner gateway stays stepped =>
      exact paid.frame after rfl (grown (endedCalls_mono (gateway_reachable reached) stepped _) _)
        fun caller payload traceId calls _ => ⟨stays.calling stepped calls, rfl⟩
  | resume caller outcome now draw gateway finished stepped =>
      have connected := connected_of_reachable reached caller
      rw [finished] at connected
      obtain ⟨payload, traceId, calls, _⟩ := connected
      by_cases own : payload.eventId = eventId
      · subst own
        exact .of_completed (le_trans (paid.le within)
          (Nat.mul_le_mul_left _ (over_resume reached calls finished stepped)))
      · have ended := endedCalls_mono (gateway_reachable reached) stepped eventId
        refine paid.frame after rfl (grown ended _) fun other payload' traceId' calls' own' => ?_
        have different : other ≠ caller := by
          rintro rfl
          obtain ⟨rfl, _⟩ := Prod.mk.inj (Option.some.inj (calls.symm.trans calls'))
          exact own own'
        exact ⟨resume_calling stepped different calls', Function.update_of_ne different _ _⟩
  | answer _ network account same =>
      refine paid.frame after ?_ (grown (le_refl _) _) fun _ _ _ calls _ => ⟨calls, rfl⟩
      simp only [System.requests, same]
  | crash =>
      rcases system.quiet_or_calls eventId with quiet | ⟨caller, payload, traceId, calls, rfl⟩
      · exact .of_completed (le_trans (paid.between quiet)
          (Nat.mul_le_mul_left _ (grown (le_refl _) _)))
      · have opened : (callers trace).any (system.opens payload.eventId) = true :=
          List.any_eq_true.mpr ⟨caller, listed.calling calls, opens_of_calling calls⟩
        refine .of_completed (le_trans (paid.le within) (Nat.mul_le_mul_left _ ?_))
        have losses := lostCalls_append payload.eventId trace
          ⟨system, .crash, { system with
            gateway := .crashed system.gateway.db
            breaker := .closed
            clients := fun _ => .idle }⟩
        simp only [Lost, opened, if_true] at losses
        simp only [System.completed]
        change endedCalls system.gateway.db _ + _ + 1 ≤ endedCalls system.gateway.db _ + _
        omega

/-- In every run the clients have attempts left, the open calls are listed, and the requests of every
event are paid. -/
theorem paid_of_traced
    (traced : (twoServices environment).TracedWithin (fun _ _ => True) system trace) :
    (∀ caller, (system.clients caller).Within
      environment.settings.accountServiceMaxAttempts.toNat) ∧ system.Listed trace ∧
    ∀ eventId, system.Paid environment.settings.accountServiceMaxAttempts.toNat trace eventId := by
  refine traced.invariant (fun system trace => (∀ caller, (system.clients caller).Within
      environment.settings.accountServiceMaxAttempts.toNat) ∧ system.Listed trace ∧
    ∀ eventId, system.Paid environment.settings.accountServiceMaxAttempts.toNat trace eventId)
    ⟨fun _ => trivial, fun _ busy => absurd rfl busy, fun _ => .of_completed (Nat.zero_le _)⟩ ?_
  rintro system trace action next before ⟨within, listed, paid⟩ _ taken
  have reached : (twoServices environment).Reachable system := before.reached
  have spends := System.spends within taken
  exact ⟨spends.within within, listed.step taken,
    fun eventId => spends.paid within reached (reached.step action taken) listed (paid eventId)⟩

end Paid

/-- The Gateway sends at most one call's attempts for the first call of an event, for each of its
queue records and for each of its calls that was cut off. -/
theorem requests_bounded
    (traced : (twoServices environment).TracedWithin (fun _ _ => True) system trace)
    (eventId : String) :
    system.requests eventId ≤ environment.settings.accountServiceMaxAttempts.toNat *
      (system.recorded eventId + lostCalls eventId trace + 1) := by
  obtain ⟨within, _, paid⟩ := paid_of_traced traced
  rcases system.quiet_or_calls eventId with quiet | ⟨caller, payload, traceId, calls, rfl⟩
  · refine le_trans ((paid eventId).between quiet) (Nat.mul_le_mul_left _ ?_)
    have ended := endedCalls_le system.gateway.db eventId
    simp only [System.completed, System.recorded]
    omega
  · have ended := endedCalls_of_calling (gateway_reachable traced.reached) calls
    refine le_trans ((paid payload.eventId).le within) (Nat.mul_le_mul_left _ ?_)
    rw [System.completed, System.recorded, ended]

/-- All attempts of the first call time out, a crash cuts no call off, and the next one cuts off the
call of the worker, which sends again. -/
def repeatedRequests : List Delivery.Action :=
  [.arrive 0 creditX.body none "trace", .advance 0, .advance 0, .advance 0, .call (.submit 0) 0,
    .interrupt (.submit 0) (.timeout "timeout") 0, .wake (.submit 0),
    .interrupt (.submit 0) (.timeout "timeout") 0, .wake (.submit 0),
    .interrupt (.submit 0) (.timeout "timeout") 0, .resume (.submit 0) 0 .zero, .crash, .poll 0,
    .take "fresh", .call .worker 0, .crash, .poll 0, .take "fresh", .call .worker 0]

theorem requests_bounded_repeated : ∃ system trace,
    (twoServices wallClockEnvironment).traced.run (twoServices wallClockEnvironment).traced.initial
      repeatedRequests = some (system, trace) ∧
    system.requests "x" = 5 ∧ system.recorded "x" = 1 ∧ lostCalls "x" trace = 1 ∧
    system.requests "x" ≤ wallClockEnvironment.settings.accountServiceMaxAttempts.toNat *
      (system.recorded "x" + lostCalls "x" trace + 1) := by
  obtain ⟨⟨system, trace⟩, ran, counted⟩ := Option.map_eq_some_iff.mp
    (show ((twoServices wallClockEnvironment).traced.run
      (twoServices wallClockEnvironment).traced.initial repeatedRequests).map (fun observed =>
        (observed.1.requests "x", observed.1.recorded "x", lostCalls "x" observed.2)) =
          some (5, 1, 1) by decide +kernel)
  obtain ⟨requests, counted⟩ := Prod.mk.inj counted
  obtain ⟨recorded, lost⟩ := Prod.mk.inj counted
  exact ⟨system, trace, ran, requests, recorded, lost, requests_bounded
    (Machine.reachedWithin_of_always repeatedRequests (fun _ _ _ => trivial) .initial ran) "x"⟩

end EventLedger.Delivery
