import EventLedger.Delivery.Connection
import EventLedger.EventGateway.Payloads
import EventLedger.EventGateway.StatusTransitions

namespace EventLedger.Delivery
open Library Python EventGateway

variable {environment : Environment} {system next : System} {action : Action}

/-- The system carries the payloads of the gateway process and of the requests sent so far. -/
def System.Carries (system : System) (payload : Payload) : Prop :=
  system.gateway.Carries payload ∨ ∃ message ∈ system.network, message.payload = payload

/-- An open call sends a payload that the process carries. -/
theorem calling_carries {storage : Storage} {process : Process}
    (consistent : process.Consistent storage) {caller : Caller} {payload : Payload}
    {traceId : String} (calls : calling process caller = some (payload, traceId)) :
    process.Carries payload := by
  cases calls_of_calling calls with
  | submit i submission event awaits =>
      exact .inl ⟨i, submission, event, by rw [awaits]; rfl, rfl⟩
  | worker delivery event _ _ _ awaits =>
      have current := (consistent.current delivery event (by rw [awaits]; rfl)).2
      exact .inr ⟨event.eventId, delivery, congrArg Entry.delivery current, rfl⟩

/-- Every request of the network repeats an old request, or an open call has sent it. -/
theorem System.Step.sent (step : System.Step environment system action next) {message : Message}
    (sent : message ∈ next.network) :
    (∃ earlier ∈ system.network, earlier.payload = message.payload ∧
        earlier.traceId = message.traceId) ∨
      ∃ caller, calling system.gateway caller = some (message.payload, message.traceId) := by
  cases step with
  | start caller _ _ _ _ _ calls | wake caller _ _ _ _ calls
  | ended _ caller _ _ _ _ _ _ _ calls =>
      rcases System.enter_sent sent with old | rfl
      · exact .inl ⟨message, old, rfl, rfl⟩
      · exact .inr ⟨caller, calls⟩
  | process tag fresh earlier found waits =>
      rcases List.mem_or_eq_of_mem_set sent with old | rfl
      · exact .inl ⟨message, old, rfl, rfl⟩
      · exact .inl ⟨earlier, List.mem_of_getElem? found, rfl, rfl⟩
  | act | resume | direct | crash => exact .inl ⟨message, sent, rfl, rfl⟩

/-- Each carried payload belongs to one stored event, and its currency is in upper case. -/
structure System.Identified (environment : Environment) (system : System) : Prop where
  arrived : ∀ i submission, (system.gateway.submits i).submission = some submission →
    environment.unicode.upper submission.command.currency = submission.command.currency
  stored : ∀ payload, system.Carries payload →
    ∃ event, system.gateway.db.events.get payload.eventId = some event ∧
      event.Holds environment.gatewayStorage payload
  unique : ∀ first second, system.Carries first → system.Carries second →
    first.eventId = second.eventId → first = second
  upper : ∀ payload, system.Carries payload →
    environment.unicode.upper payload.currency = payload.currency

/-- A step carries only old payloads and at most one new payload, which the gateway stores. -/
theorem System.Step.carries (step : System.Step environment system action next)
    (consistent : system.gateway.Consistent environment.gatewayStorage) :
    (∀ payload, next.Carries payload → system.Carries payload) ∨
      ∃ fresh, system.gateway.Stores environment.gatewayStorage next.gateway fresh ∧
        ∀ payload, next.Carries payload → system.Carries payload ∨ payload = fresh := by
  have network {payload : Payload} (sent : ∃ message ∈ next.network, message.payload = payload) :
      system.Carries payload := by
    obtain ⟨message, member, rfl⟩ := sent
    rcases step.sent member with ⟨earlier, old, same, _⟩ | ⟨caller, calls⟩
    · exact .inr ⟨earlier, old, same⟩
    · exact .inl (calling_carries consistent calls)
  have carriesOn : system.gateway.CarriesOn environment.gatewayStorage next.gateway := by
    rcases step.gateway with same | ⟨inner, stepped⟩
    · exact .inl fun payload carried => same ▸ carried
    · exact consistent.carries stepped
  rcases carriesOn with old | ⟨fresh, stores, old⟩
  · exact .inl fun payload carried => carried.elim (fun own => .inl (old payload own)) network
  · refine .inr ⟨fresh, stores, fun payload carried => ?_⟩
    rcases carried with own | sent
    · exact (old payload own).imp_left .inl
    · exact .inl (network sent)

/-- Every submission of the gateway passed the validation of the schema. -/
theorem System.Identified.arrivals (identified : system.Identified environment)
    (step : System.Step environment system action next) (i : Nat) (submission : Submission)
    (kept : (next.gateway.submits i).submission = some submission) :
    environment.unicode.upper submission.command.currency = submission.command.currency := by
  have old (same : next.gateway = system.gateway) :
      (system.gateway.submits i).submission = some submission := same ▸ kept
  cases step with
  | act _ inner gateway stays stepped =>
      rcases Process.submission_of_step stepped kept with earlier | rfl
      · exact identified.arrived i submission earlier
      · cases stays with
        | arrive _ _ upper => exact upper
  | resume caller outcome now draw gateway _ stepped =>
      rcases Process.submission_of_step stepped kept with earlier | arrival
      · exact identified.arrived i submission earlier
      · cases caller <;> cases arrival
  | start | wake => exact identified.arrived i submission (old (System.enter_gateway ..))
  | ended => exact identified.arrived i submission (old (System.endAttempt_gateway ..))
  | process | direct => exact identified.arrived i submission kept
  | crash => cases kept

/-- Every stored event keeps its data. -/
theorem System.Step.events (step : System.Step environment system action next)
    (consistent : system.gateway.Consistent environment.gatewayStorage) {eventId : String}
    {event : Event} (present : system.gateway.db.events.get eventId = some event) :
    ∃ later, next.gateway.db.events.get eventId = some later ∧ event.Advances later := by
  rcases step.gateway with same | ⟨inner, stepped⟩
  · exact ⟨event, same ▸ present, event.advances_refl⟩
  · exact (consistent.step stepped).2.advances present

theorem System.Identified.step (identified : system.Identified environment)
    (consistent : system.gateway.Consistent environment.gatewayStorage)
    (step : System.Step environment system action next) : next.Identified environment := by
  have stored {payload : Payload} (carried : system.Carries payload) :
      ∃ event, next.gateway.db.events.get payload.eventId = some event ∧
        event.Holds environment.gatewayStorage payload := by
    obtain ⟨event, present, holds⟩ := identified.stored payload carried
    obtain ⟨later, found, same, _⟩ := step.events consistent present
    exact ⟨later, found, same ▸ holds.withStatus later.processingStatus⟩
  rcases step.carries consistent with old | ⟨fresh, stores, old⟩
  · exact ⟨identified.arrivals step, fun payload carried => stored (old payload carried),
      fun first second one other => identified.unique first second (old first one) (old second other),
      fun payload carried => identified.upper payload (old payload carried)⟩
  · obtain ⟨i, submission, received, rfl, unused, row⟩ := stores
    have different {payload : Payload} (carried : system.Carries payload) :
        payload.eventId ≠ submission.payload.eventId := by
      intro same
      obtain ⟨event, present, _⟩ := identified.stored payload carried
      rw [same, unused] at present
      cases present
    refine ⟨identified.arrivals step, fun payload carried => ?_,
      fun first second one other same => ?_, fun payload carried => ?_⟩
    · rcases old payload carried with earlier | rfl
      · exact stored earlier
      · exact ⟨_, row, submission.row_holds environment.gatewayStorage⟩
    · rcases old first one with firstOld | rfl
      · rcases old second other with secondOld | rfl
        · exact identified.unique first second firstOld secondOld same
        · exact absurd same (different firstOld)
      · rcases old second other with secondOld | rfl
        · exact absurd same.symm (different secondOld)
        · rfl
    · rcases old payload carried with earlier | rfl
      · exact identified.upper payload earlier
      · exact identified.arrived i submission received

theorem identified_of_reachable (reached : (twoServices environment).Reachable system) :
    system.Identified environment := by
  refine reached.invariant (fun system => system.Identified environment) ?_
    fun state action after before identified taken =>
      identified.step (consistent_of_reachable (gateway_reachable before)) (System.step_cases taken)
  have empty {payload : Payload} : ¬ (twoServices environment).initial.Carries payload := by
    rintro ((⟨_, _, _, owned, _⟩ | ⟨_, _, queued, _⟩) | ⟨_, sent, _⟩)
    · cases owned
    · cases queued
    · cases sent
  exact ⟨fun _ _ kept => (by cases kept), fun _ carried => absurd carried empty,
    fun _ _ carried => absurd carried empty, fun _ carried => absurd carried empty⟩

end EventLedger.Delivery
