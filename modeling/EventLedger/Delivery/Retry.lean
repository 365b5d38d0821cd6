import EventLedger.Delivery.ExactlyOnce
import EventLedger.EventGateway.FailedEvents

namespace EventLedger.Delivery
open Library Python EventGateway

variable {environment : Environment} {system next last : System} {action : Delivery.Action}
  {eventId : String} {submission resubmission : Submission}

/-- A crash loses the submits in flight. -/
def Action.crashes : Delivery.Action → Bool
  | .crash => true
  | _ => false

/-- While the Account Service answers normally, no attempt ends early and no process crashes. -/
def Action.normal : Delivery.Action → Bool
  | .crash | .interrupt _ _ _ => false
  | _ => true

/-- This machine performs the same steps without a crash. -/
def uninterrupted (environment : Environment) : Machine System Delivery.Action :=
  (twoServices environment).restrict fun _ action => action.crashes = false

/-- This machine performs the same steps while the Account Service answers normally. -/
def normally (environment : Environment) : Machine System Delivery.Action :=
  (twoServices environment).restrict fun _ action => action.normal

/-- A rejection that is not the retryable one ends the matter for the client. -/
def Answer.NonRetryable (answer : Answer) : Prop :=
  (∃ status detail, answer = .httpException status detail) ∧ answer ≠ accountServiceUnavailable

/-- A resubmission recovers the event when it sends the event again and then either the event is
applied with its transaction or the client has received a rejection that is not retryable. -/
structure Recovered (environment : Environment) (submission : Submission) (before after : System)
    (answer : Answer) : Prop where
  sent : ∃ tag message, before.network.length ≤ tag ∧ after.network[tag]? = some message ∧
    message.payload.eventId = submission.command.eventId
  settled : (Recorded environment submission.payload after.account ∧
      ∃ event, after.gateway.db.events.get submission.command.eventId = some event ∧
        event.processingStatus = .applied) ∨
    Answer.NonRetryable answer

section Sent

/-- A call that starts an attempt sends its payload. -/
theorem System.enter_sentAt {caller : Caller} {payload : Payload} {traceId : String}
    {request : ClientRequest} {tag : Nat} {message : Message} (new : system.network.length ≤ tag)
    (sent : (system.enter caller payload traceId request).network[tag]? = some message) :
    message.payload = payload := by
  cases request with
  | attempting attempt =>
      simp only [enter, List.getElem?_append_right new] at sent
      rw [List.mem_singleton.mp (List.mem_of_getElem? sent)]
  | sleeping | finished =>
      have old : tag < system.network.length := (List.getElem?_eq_some_iff.mp sent).1
      omega

theorem System.endAttempt_sentAt {caller : Caller} {payload : Payload} {traceId : String}
    {attempt : Nat} {now : Rat} {outcome : AttemptOutcome} {tag : Nat} {message : Message}
    (new : system.network.length ≤ tag)
    (sent : (system.endAttempt environment caller payload traceId attempt now outcome).network[tag]? =
      some message) : message.payload = payload :=
  let ended := ClientRequest.attemptEnds environment.settings system.breaker attempt now outcome
  System.enter_sentAt (show { system with breaker := ended.1 }.network.length ≤ tag from new) sent

/-- A request of the network is old, or it has the payload of an open call. -/
theorem System.Step.sentAt (step : System.Step environment system action next) {tag : Nat}
    {message : Message} (sent : next.network[tag]? = some message) :
    tag < system.network.length ∨
      ∃ caller traceId, calling system.gateway caller = some (message.payload, traceId) := by
  rcases Nat.lt_or_ge tag system.network.length with old | new
  · exact .inl old
  · cases step with
    | start caller _ payload traceId _ _ calls | wake caller payload traceId _ _ calls =>
        exact .inr ⟨caller, traceId, System.enter_sentAt new sent ▸ calls⟩
    | ended _ caller payload traceId _ _ _ _ _ calls =>
        exact .inr ⟨caller, traceId, System.endAttempt_sentAt new sent ▸ calls⟩
    | process =>
        have old := (List.getElem?_eq_some_iff.mp sent).1
        rw [System.process, List.length_set] at old
        exact .inl old
    | act | resume | direct | crash => exact .inl (List.getElem?_eq_some_iff.mp sent).1

/-- The event of an open call is pending or queued. -/
theorem calling_not_failed (reached : (twoServices environment).Reachable system) {caller : Caller}
    {payload : Payload} {traceId : String}
    (calls : calling system.gateway caller = some (payload, traceId)) :
    ¬ system.gateway.db.Failed payload.eventId := by
  have gateway := gateway_reachable reached
  have consistent := consistent_of_reachable gateway
  rintro ⟨stored, present, failed⟩
  cases calls_of_calling calls with
  | submit i submission event awaits =>
      obtain ⟨rfl, pending⟩ := consistent.owns i submission event (by rw [awaits]; rfl)
      obtain rfl := Option.some.inj (present.symm.trans (congrArg Entry.event pending))
      cases failed
  | worker delivery event _ _ _ awaits =>
      have held : system.gateway.worker.held = some (delivery, event) := by rw [awaits]; rfl
      have current := (consistent.current delivery event held).2
      rw [← eventId_of_held gateway held] at present
      obtain rfl := Option.some.inj (present.symm.trans (congrArg Entry.event current))
      have queued := Entry.Valid.queued (current ▸ consistent.valid stored.eventId)
      rw [queued] at failed
      cases failed

/-- No later run sends a failed event again. -/
theorem failed_never_sent (reached : (twoServices environment).Reachable system)
    (failed : system.gateway.db.Failed eventId)
    (leads : (twoServices environment).Leads system last) :
    last.gateway.db.Failed eventId ∧ ∀ tag message, last.network[tag]? = some message →
      system.network.length ≤ tag → message.payload.eventId ≠ eventId := by
  refine leads.persists (fun state => state.gateway.db.Failed eventId ∧
    ∀ tag message, state.network[tag]? = some message → system.network.length ≤ tag →
      message.payload.eventId ≠ eventId) (fun state action next before held taken => ?_) reached
    ⟨failed, fun tag message sent new => ?_⟩
  · have step := System.step_cases taken
    refine ⟨?_, fun tag message sent new own => ?_⟩
    · rcases step.gateway with same | ⟨inner, stepped⟩
      · exact same ▸ held.1
      · exact held.1.moves ((consistent_of_reachable (gateway_reachable before)).step stepped).2
    · rcases step.sentAt sent with old | ⟨caller, traceId, calls⟩
      · obtain ⟨later, found, same, _⟩ := step.extends tag _ (List.getElem?_eq_getElem old)
        obtain rfl := Option.some.inj (sent.symm.trans found)
        exact held.2 tag _ (List.getElem?_eq_getElem old) new (same ▸ own)
      · exact calling_not_failed before calls (own ▸ held.1)
  · have old := (List.getElem?_eq_some_iff.mp sent).1
    omega

end Sent

section Retried
variable {i j : Nat}

/-- A step without a crash takes at most one step of the gateway process, which is no crash. -/
theorem System.Step.running (step : System.Step environment system action next)
    (running : action.crashes = false) : next.gateway = system.gateway ∨
      ∃ inner, inner ≠ .crash ∧ system.gateway.step environment.gatewayStorage
        environment.settings inner = some next.gateway := by
  cases step with
  | act _ inner gateway stays stepped =>
      refine .inr ⟨inner, ?_, stepped⟩
      rintro rfl
      cases stays
  | resume caller outcome now draw gateway _ stepped =>
      exact .inr ⟨_, by cases caller <;> simp [Caller.resume], stepped⟩
  | start | wake => exact .inl (System.enter_gateway ..)
  | ended => exact .inl (System.endAttempt_gateway ..)
  | process | direct => exact .inl rfl
  | crash => cases running

/-- A submit that reports the Account Service as unavailable leaves its event failed. -/
theorem failed_of_unavailable {first refused : System}
    (disabled : environment.settings.asyncFallbackEnabled = false)
    (reached : (twoServices environment).Reachable first)
    (received : first.gateway.submits i = .received submission)
    (ran : (uninterrupted environment).Leads first refused)
    (unavailable : refused.gateway.submits i = .answered accountServiceUnavailable) :
    (twoServices environment).Reachable refused ∧
      refused.gateway.db.Failed submission.command.eventId := by
  have kept (state : System) (action : Delivery.Action) (next : System)
      (before : (twoServices environment).Reachable state)
      (reporting : (state.gateway.submits i).Reporting state.gateway.db submission)
      (running : action.crashes = false)
      (taken : (twoServices environment).step state action = some next) :
      (next.gateway.submits i).Reporting next.gateway.db submission := by
    have consistent := consistent_of_reachable (gateway_reachable before)
    rcases (System.step_cases taken).running running with same | ⟨inner, steady, stepped⟩
    · exact same ▸ reporting
    · exact consistent.reporting disabled steady stepped reporting
  obtain ⟨reachable, reporting⟩ := ran.persistsWithin
    (fun state => (state.gateway.submits i).Reporting state.gateway.db submission) kept reached
    (by rw [received]; rfl)
  rw [unavailable] at reporting
  exact ⟨reachable, reporting rfl⟩

/-- A resubmission of a stored event is answered after two steps. -/
theorem resubmission_answered {event : Event}
    (present : system.gateway.db.events.get resubmission.command.eventId = some event)
    (received : system.gateway.submits j = .received resubmission) :
    ∃ last answer, (normally environment).Leads system last ∧
      last.gateway.submits j = .answered answer := by
  have advance {state : System} {submit : Submit} {db : Database}
      (advanced : (state.gateway.submits j).advance environment.gatewayStorage state.gateway.db =
        some (submit, db)) : (normally environment).Leads state
          { state with gateway := state.gateway.move j submit db } := by
    refine .single ⟨.advance j, Machine.step_restrict.mpr ⟨rfl, ?_⟩⟩
    simp [twoServices, System.step, System.act, Process.step, advanced]
  have first : (normally environment).Leads system { system with
      gateway := system.gateway.move j (resubmission.lookup system.gateway.db) system.gateway.db } :=
    advance (by rw [received]; rfl)
  rcases Submission.lookup_of_present present with ⟨answer, answered⟩ | ⟨record, answer, recording⟩
  · exact ⟨_, answer, first, by simp [Process.move, answered]⟩
  · let looked := system.gateway.move j (.recording record answer) system.gateway.db
    let db := { system.gateway.db with audit := system.gateway.db.audit ++ [record] }
    have second : (normally environment).Leads { system with gateway := looked }
        { system with gateway := looked.move j (.answered answer) db } :=
      advance (by simp [looked, db, Process.move, Submit.advance, Database.commit,
        EventWrite.flush, DeliveryWrite.flush])
    rw [recording] at first
    exact ⟨_, answer, first.trans second, by simp [Process.move]⟩

/-- A failed event is not recovered by any later run. -/
theorem Recovered.not_failed {answer : Answer}
    (recovered : Recovered environment submission system last answer)
    (reached : (twoServices environment).Reachable system)
    (leads : (twoServices environment).Leads system last) :
    ¬ system.gateway.db.Failed submission.command.eventId := by
  intro failed
  obtain ⟨tag, message, new, sent, own⟩ := recovered.sent
  exact (failed_never_sent reached failed leads).2 tag message sent new own

end Retried

/-- Without the fallback, no resubmission of an event that was answered as unavailable recovers it,
and every such resubmission is answered. -/
theorem retry_never_recovers {first refused retried : System} {i j : Nat}
    (disabled : environment.settings.asyncFallbackEnabled = false)
    (reached : (twoServices environment).Reachable first)
    (received : first.gateway.submits i = .received submission)
    (ran : (uninterrupted environment).Leads first refused)
    (unavailable : refused.gateway.submits i = .answered accountServiceUnavailable)
    (later : (twoServices environment).Leads refused retried)
    (identical : resubmission.command = submission.command)
    (again : retried.gateway.submits j = .received resubmission) :
    (∃ last answer, (normally environment).Leads retried last ∧
        last.gateway.submits j = .answered answer) ∧
      ∀ last answer, (twoServices environment).Leads retried last →
        last.gateway.submits j = .answered answer →
          ¬ Recovered environment submission retried last answer := by
  obtain ⟨reachable, refusedFailed⟩ :=
    failed_of_unavailable disabled reached received ran unavailable
  have failed := (failed_never_sent reachable refusedFailed later).1
  refine ⟨?_, fun last answer leads _ recovered => ?_⟩
  · obtain ⟨event, present, _⟩ := failed
    exact resubmission_answered (identical ▸ present) again
  · exact recovered.not_failed (later.reachable reachable) leads failed

/-- The gateway runs without the fallback and makes one attempt. -/
def withoutFallback : Environment :=
  { wallClockEnvironment with
    settings := { EventGateway.Settings.default with
      asyncFallbackEnabled := false
      accountServiceMaxAttempts := 1 } }

/-- The only attempt of the first submit times out. -/
def timedOut : List Delivery.Action :=
  [.advance 0, .advance 0, .advance 0, .call (.submit 0) 0,
    .interrupt (.submit 0) (.timeout "timeout") 2, .resume (.submit 0) 2 .zero, .advance 0]

/-- The client is answered 503 and submits the same body again. -/
def retriedSubmit : List Delivery.Action := [.arrive 1 creditX.body none "retry"]

theorem retry_run : ∃ first refused retried,
    (twoServices withoutFallback).run (twoServices withoutFallback).initial
      [.arrive 0 creditX.body none "trace"] = some first ∧
    (uninterrupted withoutFallback).run first timedOut = some refused ∧
    (twoServices withoutFallback).run refused retriedSubmit = some retried ∧
    first.gateway.submits 0 = .received ⟨creditX.event, "trace"⟩ ∧
    refused.gateway.submits 0 = .answered accountServiceUnavailable ∧
    retried.gateway.submits 1 = .received ⟨creditX.event, "retry"⟩ := by
  have ran : ((twoServices withoutFallback).run (twoServices withoutFallback).initial
      [.arrive 0 creditX.body none "trace"]).bind (fun first =>
        ((uninterrupted withoutFallback).run first timedOut).bind fun refused =>
          ((twoServices withoutFallback).run refused retriedSubmit).map fun retried =>
            (first.gateway.submits 0, refused.gateway.submits 0, retried.gateway.submits 1)) =
      some (.received ⟨creditX.event, "trace"⟩, .answered accountServiceUnavailable,
        .received ⟨creditX.event, "retry"⟩) := by rfl
  obtain ⟨first, arrived, ran⟩ := Option.bind_eq_some_iff.mp ran
  obtain ⟨refused, answered, ran⟩ := Option.bind_eq_some_iff.mp ran
  obtain ⟨retried, again, submits⟩ := Option.map_eq_some_iff.mp ran
  obtain ⟨received, submits⟩ := Prod.mk.inj submits
  obtain ⟨unavailable, resubmitted⟩ := Prod.mk.inj submits
  exact ⟨first, refused, retried, arrived, answered, again, received, unavailable, resubmitted⟩

theorem retry_never_recovers_timeout : ∃ retried,
    retried.gateway.submits 1 = .received ⟨creditX.event, "retry"⟩ ∧
    (∃ last answer, (normally withoutFallback).Leads retried last ∧
        last.gateway.submits 1 = .answered answer) ∧
      ∀ last answer, (twoServices withoutFallback).Leads retried last →
        last.gateway.submits 1 = .answered answer →
          ¬ Recovered withoutFallback ⟨creditX.event, "trace"⟩ retried last answer := by
  obtain ⟨first, refused, retried, arrived, answered, again, received, unavailable, resubmitted⟩ :=
    retry_run
  have identical : (⟨creditX.event, "retry"⟩ : Submission).command =
      (⟨creditX.event, "trace"⟩ : Submission).command := rfl
  exact ⟨retried, resubmitted, retry_never_recovers rfl (Machine.reachable_of_run _ .initial arrived)
    received (Machine.leads_of_run _ answered) unavailable (Machine.leads_of_run _ again) identical
    resubmitted⟩

/-- The resubmission after the time-out is answered, and nothing is sent. -/
theorem retry_timeout_lost : ∃ first refused retried last answer,
    (twoServices withoutFallback).run (twoServices withoutFallback).initial
      [.arrive 0 creditX.body none "trace"] = some first ∧
    first.gateway.submits 0 = .received ⟨creditX.event, "trace"⟩ ∧
    (uninterrupted withoutFallback).run first timedOut = some refused ∧
    refused.gateway.submits 0 = .answered accountServiceUnavailable ∧
    (twoServices withoutFallback).run refused retriedSubmit = some retried ∧
    retried.gateway.submits 1 = .received ⟨creditX.event, "retry"⟩ ∧
    (normally withoutFallback).Leads retried last ∧ last.gateway.submits 1 = .answered answer ∧
    ¬ Recovered withoutFallback ⟨creditX.event, "trace"⟩ retried last answer := by
  obtain ⟨first, refused, retried, arrived, answered, again, received, unavailable, resubmitted⟩ :=
    retry_run
  obtain ⟨reachable, refusedFailed⟩ := failed_of_unavailable rfl
    (Machine.reachable_of_run _ .initial arrived) received (Machine.leads_of_run _ answered)
    unavailable
  have later := Machine.leads_of_run _ again
  have failed := (failed_never_sent reachable refusedFailed later).1
  obtain ⟨event, present, status⟩ := failed
  obtain ⟨last, answer, leads, ended⟩ := resubmission_answered
    (show retried.gateway.db.events.get creditX.eventId = some event from present) resubmitted
  refine ⟨first, refused, retried, last, answer, arrived, received, answered, unavailable, again,
    resubmitted, leads, ended, fun recovered => ?_⟩
  exact recovered.not_failed (later.reachable reachable) (Machine.leads_of_restrict leads)
    ⟨event, present, status⟩

end EventLedger.Delivery
