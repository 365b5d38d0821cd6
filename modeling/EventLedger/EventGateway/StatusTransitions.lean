import EventLedger.EventGateway.Consistency

namespace EventLedger.EventGateway
open Library Python

variable {storage : Storage} {settings : Settings} {db next : Database} {process : Process}

/-- A pending event is applied, queued or failed, and a queued event is applied or failed. -/
def ProcessingStatus.mayBecome : ProcessingStatus → ProcessingStatus → Bool
  | .pending, .applied | .pending, .queued | .pending, .failed => true
  | .queued, .applied | .queued, .failed => true
  | _, _ => false

/-- The later row keeps all data of the earlier one and takes at most one listed transition. -/
def Event.Advances (earlier later : Event) : Prop :=
  later = earlier.withStatus later.processingStatus ∧
    (later.processingStatus = earlier.processingStatus ∨
      earlier.processingStatus.mayBecome later.processingStatus)

/-- The later row keeps all data of the earlier one, and it keeps a final status. -/
def Event.Persists (earlier later : Event) : Prop :=
  later = earlier.withStatus later.processingStatus ∧
    (earlier.processingStatus.final → later.processingStatus = earlier.processingStatus)

theorem Event.advances_refl (event : Event) : event.Advances event := ⟨rfl, .inl rfl⟩

/-- A move lets the event of its entry advance. -/
theorem Entry.Move.advances {before after : Entry} (move : Entry.Move storage before after)
    {event : Event} (present : before.event = some event) :
    ∃ later, after.event = some later ∧ event.Advances later := by
  cases move with
  | insert submission => cases present
  | settle submission status final =>
      obtain rfl := Option.some.inj present
      refine ⟨_, rfl, rfl, .inr ?_⟩
      cases status with
      | applied | failed => rfl
      | pending | queued => cases final
  | queue submission now =>
      obtain rfl := Option.some.inj present
      exact ⟨_, rfl, rfl, .inr rfl⟩
  | reschedule =>
      obtain rfl := Option.some.inj present
      exact ⟨_, rfl, Event.advances_refl _⟩
  | dequeue _ _ status queued final =>
      obtain rfl := Option.some.inj present
      refine ⟨_, rfl, rfl, .inr ?_⟩
      rw [queued]
      cases status with
      | applied | failed => rfl
      | pending | queued => cases final

/-- No step deletes an event, and each stored event advances. -/
theorem Database.Moves.advances (moves : db.Moves storage next) {eventId : String} {event : Event}
    (present : db.events.get eventId = some event) :
    ∃ later, next.events.get eventId = some later ∧ event.Advances later := by
  rcases moves with same | ⟨moved, move, others⟩
  · have kept := congrArg Entry.event (same eventId)
    exact ⟨event, kept.trans present, event.advances_refl⟩
  · by_cases own : eventId = moved
    · subst own
      exact move.advances present
    · have kept := congrArg Entry.event (others eventId own)
      exact ⟨event, kept.trans present, event.advances_refl⟩

/-- A final status has no listed transition. -/
theorem ProcessingStatus.final_stays {status later : ProcessingStatus} (final : status.final) :
    status.mayBecome later = false := by
  cases status with
  | applied | failed => rfl
  | pending | queued => cases final

/-- An event that persists and then advances persists. -/
theorem Event.Persists.advance {first second third : Event} (persists : first.Persists second)
    (advances : second.Advances third) : first.Persists third := by
  obtain ⟨same, kept⟩ := persists
  obtain ⟨data, transition⟩ := advances
  refine ⟨by rw [data, same]; rfl, fun final => ?_⟩
  rcases transition with unchanged | changed
  · rw [unchanged, kept final]
  · rw [kept final, ProcessingStatus.final_stays final] at changed
    cases changed

/-- Each committed change of a status is a listed one, and later states keep every event with its
data and every final status. -/
theorem status_transitions (reached : (gateway storage settings).Reachable process) :
    (∀ action after, process.step storage settings action = some after →
      ∀ eventId event, process.db.events.get eventId = some event →
        ∃ later, after.db.events.get eventId = some later ∧ event.Advances later) ∧
    (∀ after, (gateway storage settings).Leads process after →
      ∀ eventId event, process.db.events.get eventId = some event →
        ∃ later, after.db.events.get eventId = some later ∧ event.Persists later) := by
  constructor
  · intro action after taken eventId event present
    exact ((consistent_of_reachable reached).step taken).2.advances present
  · intro after leads eventId event present
    refine leads.persists
      (fun state => ∃ later, state.db.events.get eventId = some later ∧ event.Persists later)
      (fun state action next before held taken => ?_) reached ⟨event, present, rfl, fun _ => rfl⟩
    obtain ⟨middle, stored, persists⟩ := held
    obtain ⟨later, found, advances⟩ :=
      ((consistent_of_reachable before).step taken).2.advances stored
    exact ⟨later, found, persists.advance advances⟩

/-- The first call is answered with an applied status and the second one is queued. -/
def appliedThenQueued : List Action :=
  [.arrive 0 ⟨creditX.event, "trace"⟩, .advance 0, .advance 0, .advance 0,
    .resume 0 (.response ⟨201, "application/json", some "", none⟩) 0, .advance 0,
    .arrive 1 ⟨creditY.event, "trace"⟩, .advance 1, .advance 1, .advance 1,
    .resume 1 (.unavailable "timeout") 0]

theorem status_transitions_queued : ∃ state,
    (gateway .wallClock .default).run (gateway .wallClock .default).initial appliedThenQueued = some state ∧
    (∀ action after, state.step .wallClock .default action = some after →
      ∀ eventId event, state.db.events.get eventId = some event →
        ∃ later, after.db.events.get eventId = some later ∧ event.Advances later) ∧
    (∀ after, (gateway .wallClock .default).Leads state after →
      ∀ eventId event, state.db.events.get eventId = some event →
        ∃ later, after.db.events.get eventId = some later ∧ event.Persists later) := by
  obtain ⟨state, ran⟩ := Option.isSome_iff_exists.mp
    (show ((gateway .wallClock .default).run (gateway .wallClock .default).initial
      appliedThenQueued).isSome by decide)
  exact ⟨state, ran, status_transitions (Machine.reachable_of_run appliedThenQueued .initial ran)⟩

end EventLedger.EventGateway
