import EventLedger.Delivery.Payloads
import EventLedger.EventGateway.DeliveryQueue
import EventLedger.EventGateway.Outcomes

namespace EventLedger.Delivery
open Library Python EventGateway

variable {environment : Environment} {system next : System} {action : Delivery.Action}
  {settings : Settings} {outcome : CallOutcome} {eventId : String}

/-- A status agrees with an answer when the answer alone decides it. -/
def Agrees (status : ProcessingStatus) (statusCode : Nat) : Prop :=
  match status with
  | .applied => statusCode < 400
  | .failed => 400 ≤ statusCode
  | .pending | .queued => False

/-- These statuses come only from a response: without the fallback an event also fails without one. -/
def responsive (settings : Settings) : ProcessingStatus → Bool
  | .applied => true
  | .failed => settings.asyncFallbackEnabled
  | .pending | .queued => false

theorem settledStatus_response (given : responsive settings (settledStatus settings outcome)) :
    ∃ response, outcome = .response response ∧
      Agrees (settledStatus settings outcome) response.statusCode := by
  cases outcome with
  | response response =>
      refine ⟨response, rfl, ?_⟩
      by_cases rejected : 400 ≤ response.statusCode
      · simpa only [settledStatus, if_pos rejected, Agrees] using rejected
      · simpa only [settledStatus, if_neg rejected, Agrees, Nat.not_le] using rejected
  | unavailable message =>
      cases enabled : settings.asyncFallbackEnabled with
      | true => simp [settledStatus, enabled, responsive] at given
      | false => simp [settledStatus, enabled, responsive] at given
  | raised => cases given

theorem deliveredStatus_response (given : responsive settings (deliveredStatus outcome)) :
    ∃ response, outcome = .response response ∧
      Agrees (deliveredStatus outcome) response.statusCode := by
  cases outcome with
  | response response =>
      refine ⟨response, rfl, ?_⟩
      by_cases rejected : 400 ≤ response.statusCode
      · simpa only [deliveredStatus, if_pos rejected, Agrees] using rejected
      · simpa only [deliveredStatus, if_neg rejected, Agrees, Nat.not_le] using rejected
  | unavailable | raised => cases given

/-- The event of an open call is the event of its payload. -/
theorem calling_eventId (reached : (twoServices environment).Reachable system)
    {inner : EventGateway.Action} {status : ProcessingStatus}
    (decides : Decides environment.settings system.gateway eventId inner status)
    {caller : Caller} {now : Rat} {draw : Draw} (acts : inner = caller.resume outcome now draw)
    {payload : Payload} {traceId : String}
    (calls : calling system.gateway caller = some (payload, traceId)) :
    payload.eventId = eventId := by
  cases decides with
  | submit i submission event _ _ owned own =>
      cases caller with
      | worker => cases acts
      | submit j =>
          cases acts
          cases calls_of_calling calls with
          | submit _ _ _ awaits =>
              rw [awaits] at owned
              obtain ⟨rfl, _⟩ := Prod.mk.inj (Option.some.inj owned)
              exact own
  | worker delivery event _ _ _ held own =>
      cases caller with
      | submit => cases acts
      | worker =>
          cases acts
          cases calls_of_calling calls with
          | worker other _ _ _ _ awaits =>
              have same := eventId_of_held (gateway_reachable reached) held
              rw [awaits] at held
              obtain ⟨rfl, _⟩ := Prod.mk.inj (Option.some.inj held)
              rw [← own, same]

/-- A local action decides no status. -/
theorem Local.decides {unicode : Unicode} {inner : EventGateway.Action} {process : Process}
    {status : ProcessingStatus} (stays : Local unicode inner) :
    ¬ Decides settings process eventId inner status := by
  intro decides
  cases decides <;> cases stays

/-- An outcome that decides a responsive status is a response that agrees with it. -/
theorem decides_response {inner : EventGateway.Action} {process : Process}
    {status : ProcessingStatus} (decides : Decides settings process eventId inner status)
    (given : responsive settings status) {caller : Caller} {now : Rat} {draw : Draw}
    (acts : inner = caller.resume outcome now draw) :
    ∃ response, outcome = .response response ∧ Agrees status response.statusCode := by
  cases decides with
  | submit i submission event other _ owned own =>
      cases caller with
      | worker => cases acts
      | submit j =>
          cases acts
          exact settledStatus_response given
  | worker delivery event other _ _ held own =>
      cases caller with
      | submit => cases acts
      | worker =>
          cases acts
          exact deliveredStatus_response given

/-- Each responsive status of an event comes from the answer to one of its requests. -/
def System.Answered (environment : Environment) (system : System) : Prop :=
  ∀ eventId event, system.gateway.db.events.get eventId = some event →
    responsive environment.settings event.processingStatus →
    ∃ message ∈ system.network, message.payload.eventId = eventId ∧
      ∃ answer, message.answer = some answer ∧ Agrees event.processingStatus answer.status

/-- Only the resume of a call decides a status. -/
theorem System.Step.decides (step : System.Step environment system action next)
    (consistent : system.gateway.Consistent environment.gatewayStorage) {event : Event}
    (present : next.gateway.db.events.get eventId = some event) :
    (∃ earlier, system.gateway.db.events.get eventId = some earlier ∧
        earlier.processingStatus = event.processingStatus) ∨
      event.processingStatus = .pending ∨
      ∃ inner caller outcome now draw, inner = caller.resume outcome now draw ∧
        system.clients caller = .finished outcome ∧
        Decides environment.settings system.gateway eventId inner event.processingStatus := by
  have unchanged (same : next.gateway = system.gateway) :
      ∃ earlier, system.gateway.db.events.get eventId = some earlier ∧
        earlier.processingStatus = event.processingStatus := ⟨event, same ▸ present, rfl⟩
  cases step with
  | act _ inner gateway stays stepped =>
      rcases consistent.decides stepped present with old | pending | decides
      · exact .inl old
      · exact .inr (.inl pending)
      · exact absurd decides stays.decides
  | resume caller outcome now draw gateway finished stepped =>
      rcases consistent.decides stepped present with old | pending | decides
      · exact .inl old
      · exact .inr (.inl pending)
      · exact .inr (.inr ⟨_, caller, outcome, now, draw, rfl, finished, decides⟩)
  | start | wake => exact .inl (unchanged (System.enter_gateway ..))
  | ended => exact .inl (unchanged (System.endAttempt_gateway ..))
  | process | direct | crash => exact .inl ⟨event, present, rfl⟩

theorem System.Answered.step (reached : (twoServices environment).Reachable system)
    (answered : system.Answered environment)
    (step : System.Step environment system action next) : next.Answered environment := by
  intro eventId event present given
  have consistent := consistent_of_reachable (gateway_reachable reached)
  rcases step.decides consistent present with
    ⟨earlier, old, same⟩ | pending | ⟨inner, caller, outcome, now, draw, acts, finished, decides⟩
  · rw [← same] at given ⊢
    obtain ⟨message, member, own, answer, given, agrees⟩ := answered eventId earlier old given
    obtain ⟨tag, found⟩ := List.mem_iff_getElem?.mp member
    obtain ⟨later, present, same, kept⟩ := step.extends tag message found
    exact ⟨later, List.mem_of_getElem? present, same ▸ own, answer, kept answer given, agrees⟩
  · rw [pending] at given
    cases given
  · have connected := connected_of_reachable reached caller
    rw [finished] at connected
    obtain ⟨payload, traceId, calls, responses⟩ := connected
    obtain ⟨response, rfl, agrees⟩ := decides_response decides given acts
    obtain ⟨message, member, sent, status⟩ := responses response rfl
    obtain ⟨answer, given, code⟩ := Option.map_eq_some_iff.mp status
    obtain ⟨tag, found⟩ := List.mem_iff_getElem?.mp member
    obtain ⟨later, present, same, kept⟩ := step.extends tag message found
    refine ⟨later, List.mem_of_getElem? present, ?_, answer, kept answer given, code ▸ agrees⟩
    rw [same, sent]
    exact calling_eventId reached decides acts calls

/-- In every reachable state a final status comes from an answer. -/
theorem answered_of_reachable (reached : (twoServices environment).Reachable system) :
    system.Answered environment :=
  reached.invariant _ (fun _ _ present => by cases present)
    fun _ _ _ before answered taken => answered.step before (System.step_cases taken)

end EventLedger.Delivery
