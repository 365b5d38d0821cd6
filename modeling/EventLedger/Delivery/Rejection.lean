import EventLedger.Delivery.ExactlyOnce

namespace EventLedger.Delivery
open Library Python EventGateway

variable {environment : Environment} {system next : System} {action : Delivery.Action}
  {db : AccountService.Database} {payload : Payload}

/-- An event is delivered again after a delivery created its transaction only if its offset is zero
and the column keeps its amount. -/
def System.clear (environment : Environment) (system : System) : Delivery.Action → Bool
  | .process tag _ =>
      match system.network[tag]? with
      | some message =>
          !(system.network.any fun earlier =>
              earlier.payload.eventId == message.payload.eventId && earlier.created) ||
            (message.payload.eventTimestamp.offset == 0 &&
              decide (environment.accountStorage.numeric message.payload.amount =
                message.payload.amount))
      | none => true
  | _ => true

/-- A created payload is replayed without an error when its offset is zero and its amount is kept. -/
theorem Created.not_rejected (created : Created environment payload db)
    (wallClock : environment.accountStorage.dateTime = Datetime.dropOffset) (owned : db.Owned)
    (utc : payload.eventTimestamp.offset = 0)
    (kept : environment.accountStorage.numeric payload.amount = payload.amount) :
    ¬ Rejected environment payload db := by
  obtain ⟨command, accepted, path, stored⟩ := created
  obtain ⟨_, _, _, amount, _, timestamp⟩ := TransactionCreate.validate_eq_some accepted
  intro rejected
  exact AccountService.Request.stored_not_refused
    ⟨environment.path payload.accountId, command, ""⟩ owned wallClock path (by rw [timestamp, utc])
    (by rw [amount, kept]) (stored "") (rejected command accepted "")

/-- The network answered no event both with 201 and with an error. -/
def System.Decided (system : System) : Prop :=
  ∀ first ∈ system.network, ∀ second ∈ system.network,
    first.payload.eventId = second.payload.eventId → first.created →
    ∀ answer, second.answer = some answer → answer.status < 400

/-- A created request was answered 201. -/
theorem Message.created_iff {message : Message} :
    message.created ↔ ∃ answer, message.answer = some answer ∧ answer.status = 201 := by
  unfold created
  cases message.answer with
  | none => simp
  | some answer => simp

/-- The condition covers the redelivery of every created event. -/
theorem System.clear_process {tag : Nat} {fresh : String} {message earlier : Message}
    (clear : system.clear environment (.process tag fresh))
    (found : system.network[tag]? = some message) (member : earlier ∈ system.network)
    (same : earlier.payload.eventId = message.payload.eventId) (created : earlier.created) :
    message.payload.eventTimestamp.offset = 0 ∧
      environment.accountStorage.numeric message.payload.amount = message.payload.amount := by
  have redelivered : (system.network.any fun earlier =>
      earlier.payload.eventId == message.payload.eventId && earlier.created) = true :=
    List.any_eq_true.mpr ⟨earlier, member, by simp [same, created]⟩
  simpa [System.clear, found, redelivered] using clear

/-- A clear step keeps the network decided. -/
theorem System.Decided.step (reached : (twoServices environment).Reachable system)
    (decided : system.Decided)
    (wallClock : environment.accountStorage.dateTime = Datetime.dropOffset)
    (clear : system.clear environment action)
    (step : System.Step environment system action next) : next.Decided := by
  have identified := identified_of_reachable reached
  have remembered := remembered_of_reachable reached
  intro first firstSent second secondSent sameId created answer answered
  by_contra error
  rw [Nat.not_lt] at error
  obtain ⟨accepted, firstAnswered, status⟩ := Message.created_iff.mp created
  rcases step.answers firstSent firstAnswered with
    ⟨earlier, earlierSent, earlierSame, earlierAnswered⟩ |
      ⟨_, _, earlier, traceId, _, found, earlierSame, _, rfl⟩
  · have earlierCreated := Message.created_iff.mpr ⟨accepted, earlierAnswered, status⟩
    rcases step.answers secondSent answered with
      ⟨other, otherSent, otherSame, otherAnswered⟩ |
        ⟨tag, fresh, other, traceId, rfl, found, otherSame, _, rfl⟩
    · have below := decided earlier earlierSent other otherSent
        (by rw [earlierSame, otherSame, sameId]) earlierCreated answer otherAnswered
      omega
    · have samePayload : earlier.payload = other.payload :=
        identified.unique _ _ (.inr ⟨earlier, earlierSent, rfl⟩)
          (.inr ⟨other, List.mem_of_getElem? found, rfl⟩) (by rw [earlierSame, otherSame, sameId])
      obtain ⟨utc, kept⟩ := System.clear_process clear found earlierSent
        (by rw [samePayload]) earlierCreated
      have stored := remembered.created earlier earlierSent accepted earlierAnswered status
      rw [samePayload] at stored
      rw [← otherSame] at error
      exact stored.not_rejected wallClock remembered.owned utc kept
        ((rejected_iff remembered.owned _).mpr error)
  · obtain ⟨other, otherSent, otherSame, rejected⟩ :
        ∃ other ∈ system.network, other.payload = second.payload ∧
          Rejected environment second.payload system.account := by
      rcases step.answers secondSent answered with
        ⟨other, otherSent, otherSame, otherAnswered⟩ | ⟨_, _, other, _, _, present, otherSame, _, rfl⟩
      · exact ⟨other, otherSent, otherSame,
          otherSame ▸ remembered.rejected other otherSent answer otherAnswered error⟩
      · exact ⟨other, List.mem_of_getElem? present, otherSame,
          (rejected_iff remembered.owned _).mpr error⟩
    have samePayload : first.payload = second.payload :=
      identified.unique _ _ (.inr ⟨earlier, List.mem_of_getElem? found, earlierSame⟩)
        (.inr ⟨other, otherSent, otherSame⟩) sameId
    have refused := (rejected_iff remembered.owned traceId).mp (samePayload ▸ rejected)
    omega

/-- A run of clear steps reaches only decided networks. -/
theorem decided_of_reached (wallClock : environment.accountStorage.dateTime = Datetime.dropOffset)
    (reached : (twoServices environment).ReachedWithin
      (fun system action => system.clear environment action) system) : system.Decided :=
  reached.invariant _ (fun _ sent => by cases sent)
    fun _ _ _ before decided clear taken =>
      decided.step before.reachable wallClock clear (System.step_cases taken)

/-- The ledger rejects every delivery of an event, and no delivery of it created a transaction. -/
def System.Refuses (environment : Environment) (eventId : String) (system : System) : Prop :=
  (∃ message ∈ system.network, message.payload.eventId = eventId ∧
      Rejected environment message.payload system.account) ∧
    ∀ message ∈ system.network, message.payload.eventId = eventId → ¬ message.created

/-- Every step keeps an event refused. -/
theorem System.Refuses.step {eventId : String}
    (reached : (twoServices environment).Reachable system)
    (refuses : system.Refuses environment eventId)
    (step : System.Step environment system action next) : next.Refuses environment eventId := by
  obtain ⟨⟨message, sent, own, rejected⟩, uncreated⟩ := refuses
  obtain ⟨tag, found⟩ := List.mem_iff_getElem?.mp sent
  obtain ⟨later, present, same, _⟩ := step.extends tag message found
  refine ⟨⟨later, List.mem_of_getElem? present, same ▸ own, same ▸ rejected.grows step.grows⟩,
    fun other otherSent otherOwn created => ?_⟩
  obtain ⟨answer, answered, status⟩ := Message.created_iff.mp created
  rcases step.answers otherSent answered with
    ⟨earlier, earlierSent, earlierSame, earlierAnswered⟩ |
      ⟨_, _, earlier, traceId, _, earlierFound, earlierSame, _, rfl⟩
  · exact uncreated earlier earlierSent (by rw [earlierSame, otherOwn])
      (Message.created_iff.mpr ⟨answer, earlierAnswered, status⟩)
  · have samePayload : message.payload = other.payload :=
      (identified_of_reachable reached).unique _ _ (.inr ⟨message, sent, rfl⟩)
        (.inr ⟨earlier, List.mem_of_getElem? earlierFound, earlierSame⟩) (by rw [own, otherOwn])
    have refused := (rejected_iff (remembered_of_reachable reached).owned traceId).mp
      (samePayload ▸ rejected)
    omega

/-- A failed event of a decided network is refused. -/
theorem System.Decided.refuses (decided : system.Decided)
    (reached : (twoServices environment).Reachable system)
    (enabled : environment.settings.asyncFallbackEnabled) {event : Event}
    (member : event ∈ system.gateway.db.events.rows) (failed : event.processingStatus = .failed) :
    system.Refuses environment event.eventId := by
  obtain ⟨message, sent, own, answer, answered, agrees⟩ :=
    answered_of_reachable reached event.eventId event (Table.get_of_mem member)
      (by rw [failed]; exact enabled)
  rw [failed] at agrees
  have error : 400 ≤ answer.status := agrees
  refine ⟨⟨message, sent, own,
    (remembered_of_reachable reached).rejected message sent answer answered error⟩,
    fun other otherSent otherOwn created => ?_⟩
  have below := decided other otherSent message sent (by rw [own, otherOwn]) created answer answered
  omega

/-- No delivery of a failed event has created a transaction, and no later step creates one, after
every run in which a created event is delivered again only with offset zero and an amount that the
column keeps. -/
theorem failed_never_created
    (wallClock : environment.accountStorage.dateTime = Datetime.dropOffset)
    (enabled : environment.settings.asyncFallbackEnabled)
    (reached : (twoServices environment).ReachedWithin
      (fun system action => system.clear environment action) system) {event : Event}
    (member : event ∈ system.gateway.db.events.rows) (failed : event.processingStatus = .failed)
    {later : System} (leads : (twoServices environment).Leads system later) :
    ∀ message ∈ later.network, message.payload.eventId = event.eventId → ¬ message.created := by
  have refuses := (decided_of_reached wallClock reached).refuses reached.reachable enabled member failed
  exact (leads.persists (System.Refuses environment event.eventId)
    (fun _ _ _ before refuses taken => refuses.step before (System.step_cases taken))
    reached.reachable refuses).2

/-- Another client has opened account `a` in euros before the gateway delivers its event twice. -/
def mismatched : List Delivery.Action :=
  .direct "a" { creditY.body with currency := "EUR" } "trace" ::
    retried creditX.body 409

theorem failed_never_created_mismatched : ∃ state,
    (twoServices wallClockEnvironment).run (twoServices wallClockEnvironment).initial mismatched =
      some state ∧
    ∃ event ∈ state.gateway.db.events.rows, event.processingStatus = .failed ∧
      ∀ later, (twoServices wallClockEnvironment).Leads state later →
        ∀ message ∈ later.network, message.payload.eventId = event.eventId → ¬ message.created := by
  have clearRun : (((twoServices wallClockEnvironment).restrict
      fun system action => system.clear wallClockEnvironment action).run
        (twoServices wallClockEnvironment).initial mismatched).map
          (fun state => state.gateway.db.events.rows.map Event.processingStatus) = some [.failed] := by
    decide
  obtain ⟨state, ran, statuses⟩ := Option.map_eq_some_iff.mp clearRun
  obtain ⟨event, rows, failed⟩ := List.map_eq_singleton_iff.mp statuses
  have member : event ∈ state.gateway.db.events.rows := rows ▸ List.mem_singleton_self event
  exact ⟨state, Machine.run_of_restrict ran, event, member, failed, fun later leads =>
    failed_never_created rfl rfl (Machine.reachedWithin_of_run mismatched .initial ran) member failed
      leads⟩

/-- The retry of a created event with another offset is answered 409, and the event fails. -/
theorem retried_failed_created : ∃ state,
    (twoServices wallClockEnvironment).Reachable state ∧
    ∃ event ∈ state.gateway.db.events.rows, event.processingStatus = .failed ∧
      event.eventId ∈ state.account.transactions.rows.map AccountService.Transaction.eventId ∧
      ∃ message ∈ state.network, message.payload.eventId = event.eventId ∧ message.created := by
  have failing : ((twoServices wallClockEnvironment).run (twoServices wallClockEnvironment).initial
      (retried creditEastern.body 409)).map (fun state =>
        (state.gateway.db.events.rows.map fun event => (event.eventId, event.processingStatus),
          state.account.transactions.rows.map AccountService.Transaction.eventId,
          state.network.map fun message => (message.payload.eventId, message.created))) =
      some ([("x", .failed)], ["x"], [("x", true), ("x", false)]) := by decide
  obtain ⟨state, ran, outcome⟩ := Option.map_eq_some_iff.mp failing
  simp only [Prod.mk.injEq] at outcome
  obtain ⟨events, ledger, network⟩ := outcome
  obtain ⟨event, rows, own⟩ := List.map_eq_singleton_iff.mp events
  obtain ⟨eventId, failed⟩ := Prod.mk.inj own
  obtain ⟨message, rest, sent, own, _⟩ := List.map_eq_cons_iff.mp network
  obtain ⟨same, created⟩ := Prod.mk.inj own
  refine ⟨state, Machine.reachable_of_run _ .initial ran, event,
    rows ▸ List.mem_singleton_self event, failed, ?_, message, sent ▸ List.mem_cons_self, ?_, created⟩
  · rw [ledger, eventId]
    exact List.mem_singleton_self "x"
  · rw [same, eventId]

end EventLedger.Delivery
