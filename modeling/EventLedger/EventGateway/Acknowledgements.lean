import EventLedger.EventGateway.DeliveryQueue
import EventLedger.EventGateway.Resubmission

namespace EventLedger.EventGateway
open Library Python

variable {storage : Storage} {settings : Settings} {db next : Database} {process after : Process}
  {action : Action} {eventId : String} {submission : Submission} {answer : Answer}

section Kept

/-- No step touches an event in a final status. -/
theorem Database.Moves.final {event : Event} (moves : db.Moves storage next)
    (final : event.processingStatus.final) (present : db.events.get eventId = some event) :
    next.events.get eventId = some event := by
  obtain ⟨later, found, same, kept | changed⟩ := moves.advances present
  · rw [found, same, kept]
    rfl
  · rw [ProcessingStatus.final_stays final] at changed
    cases changed

/-- An accepted event waits in the queue with the payload of its submit, or it has a final status. -/
def Entry.Accepted (storage : Storage) (submission : Submission) (entry : Entry) : Prop :=
  (∃ delivery, entry = ⟨some ((submission.row storage).withStatus .queued), some delivery⟩ ∧
      delivery.payloadJson = submission.payload) ∨
    ∃ status : ProcessingStatus, status.final ∧
      entry = ⟨some ((submission.row storage).withStatus status), none⟩

/-- Every move keeps an accepted event accepted. -/
theorem Entry.Move.accepted {before after : Entry} (move : Entry.Move storage before after)
    (accepted : before.Accepted storage submission) : after.Accepted storage submission := by
  rcases accepted with ⟨delivery, same, payload⟩ | ⟨status, final, same⟩
  · cases move with
    | insert | settle | queue => cases congrArg Entry.delivery same
    | reschedule _ earlier attemptCount lastError nextAttemptAt =>
        obtain ⟨event, waiting⟩ := Entry.mk.inj same
        obtain rfl := Option.some.inj event
        obtain rfl := Option.some.inj waiting
        exact .inl ⟨_, rfl, payload⟩
    | dequeue _ _ status _ final =>
        obtain ⟨event, _⟩ := Entry.mk.inj same
        obtain rfl := Option.some.inj event
        exact .inr ⟨status, final, rfl⟩
  · -- A final status differs from the status that the move starts from.
    have settled {event : Event} {delivery : Option PendingDelivery}
        (held : Entry.mk (some event) delivery =
          ⟨some ((submission.row storage).withStatus status), none⟩) :
        event.processingStatus.final := by
      obtain ⟨row, _⟩ := Entry.mk.inj held
      obtain rfl := Option.some.inj row
      exact final
    cases move with
    | insert => cases same
    | settle | queue => cases settled same
    | reschedule _ _ _ _ _ queued | dequeue _ _ _ queued =>
        have final := settled same
        rw [queued] at final
        cases final

theorem Database.Moves.accepted (moves : db.Moves storage next)
    (accepted : (db.entry eventId).Accepted storage submission) :
    (next.entry eventId).Accepted storage submission := by
  rcases moves with same | ⟨moved, move, others⟩
  · rwa [same]
  · by_cases own : eventId = moved
    · subst own
      exact move.accepted accepted
    · rwa [others eventId own]

end Kept

section Abandoned

/-- A pending event that no submit owns is abandoned. -/
structure Process.Abandons (process : Process) (event : Event) : Prop where
  stored : process.db.entry event.eventId = ⟨some event, none⟩
  pending : event.processingStatus = .pending
  unowned : ∀ i held, (process.submits i).owned = some held →
    held.1.command.eventId ≠ event.eventId

/-- The other submits own other events, and a submit that has none owns nothing. -/
theorem Process.Abandons.frame {event : Event} (abandons : process.Abandons event)
    (stored : after.db.entry event.eventId = process.db.entry event.eventId)
    (owned : ∀ i held, (after.submits i).owned = some held →
      (process.submits i).owned = some held ∨ held.1.command.eventId ≠ event.eventId) :
    after.Abandons event where
  stored := stored.trans abandons.stored
  pending := abandons.pending
  unowned i held later := (owned i held later).elim (abandons.unowned i held) id

/-- No step settles, queues or deletes an abandoned event. -/
theorem Process.Abandons.step {event : Event} (abandons : process.Abandons event)
    (consistent : process.Consistent storage)
    (taken : process.step storage settings action = some after) : after.Abandons event := by
  rcases Process.step_cases taken with ⟨i, submit, step, submits, _⟩ | ⟨step, submits⟩ | ⟨_, rfl⟩
  · -- Only the submit that takes the step can own something new.
    have others (own : ∀ held, submit.owned = some held →
        (process.submits i).owned = some held ∨ held.1.command.eventId ≠ event.eventId) :
        ∀ j held, (after.submits j).owned = some held →
          (process.submits j).owned = some held ∨ held.1.command.eventId ≠ event.eventId := by
      intro j held later
      rcases owned_of_update (submits ▸ later) with ⟨rfl, new⟩ | ⟨_, old⟩
      · exact own held new
      · exact .inl old
    cases step.effect (consistent.owns i) with
    | silent kept same =>
        refine abandons.frame (same _) (others fun held new => ?_)
        rcases kept with kept | ⟨kept, _⟩
        · exact .inl (kept ▸ new)
        · rw [kept] at new
          cases new
    | insert submission fresh _ _ later changed =>
        have different : submission.command.eventId ≠ event.eventId := by
          intro same
          rw [same] at fresh
          cases fresh.symm.trans (congrArg Entry.event abandons.stored)
        refine abandons.frame ?_ (others fun held new => ?_)
        · rw [changed, if_neg (Ne.symm different)]
        · obtain rfl := Option.some.inj (later.symm.trans new)
          exact .inr different
    | settle submission entry earlier later _ _ _ _ changed =>
        refine abandons.frame ?_ (others fun held new => ?_)
        · rw [changed, if_neg (Ne.symm (abandons.unowned i _ earlier))]
        · rw [later] at new
          cases new
  · have kept : ∀ j held, (after.submits j).owned = some held →
        (process.submits j).owned = some held ∨ held.1.command.eventId ≠ event.eventId :=
      fun j held later => .inl (submits ▸ later)
    cases step.effect consistent.valid consistent.current with
    | silent _ same | call _ _ _ _ same => exact abandons.frame (same _) kept
    | deliver delivery held entry _ _ current _ _ _ changed =>
        have different : event.eventId ≠ held.eventId := by
          intro same
          have waiting := congrArg Entry.delivery (abandons.stored.symm.trans (same ▸ current))
          cases waiting
        exact abandons.frame (by rw [changed, if_neg different]) kept
  · exact abandons.frame rfl fun _ _ owned => by cases owned

end Abandoned

section Vouched

/-- The state bears out every answer to a submit. -/
inductive Answer.Vouched (storage : Storage) (settings : Settings) (process : Process)
    (submission : Submission) : Answer → Prop where
  | applied (stored : process.db.events.get submission.command.eventId =
        some ((submission.row storage).withStatus .applied)) :
      Vouched storage settings process submission
        (.returned ((submission.row storage).withStatus .applied) true)
  | accepted (held : (process.db.entry submission.command.eventId).Accepted storage submission) :
      Vouched storage settings process submission
        (.returned ((submission.row storage).withStatus .queued) true)
  | replayed (event later : Event)
      (stored : process.db.events.get submission.command.eventId = some later)
      (persists : event.Persists later) (equal : sameEvent event submission.command = some true) :
      Vouched storage settings process submission (.returned event false)
  | conflict (event : Event) (message : String)
      (stored : process.db.events.get submission.command.eventId = some event)
      (differs : sameEvent event submission.command = some false) :
      Vouched storage settings process submission (eventIdConflict message)
  | overflow (event : Event)
      (stored : process.db.events.get submission.command.eventId = some event)
      (undefined : sameEvent event submission.command = none) :
      Vouched storage settings process submission .unhandled
  | rejected (response : Response) (detail : Json) (error : 400 ≤ response.statusCode)
      (parsed : response.detail = some detail)
      (stored : process.db.events.get submission.command.eventId =
        some ((submission.row storage).withStatus .failed)) :
      Vouched storage settings process submission (.rejected response.statusCode detail)
  | unparsed (stored : process.db.events.get submission.command.eventId =
        some ((submission.row storage).withStatus .failed)) :
      Vouched storage settings process submission .unhandled
  | unavailable (disabled : settings.asyncFallbackEnabled = false)
      (stored : process.db.events.get submission.command.eventId =
        some ((submission.row storage).withStatus .failed)) :
      Vouched storage settings process submission accountServiceUnavailable
  | abandoned (abandons : process.Abandons (submission.row storage)) :
      Vouched storage settings process submission .unhandled

/-- No step makes an answer untrue, a crash included. -/
theorem Answer.Vouched.step (vouched : answer.Vouched storage settings process submission)
    (consistent : process.Consistent storage)
    (taken : process.step storage settings action = some after) :
    answer.Vouched storage settings after submission := by
  have moves := (consistent.step taken).2
  cases vouched with
  | applied stored => exact .applied (moves.final rfl stored)
  | accepted held => exact .accepted (moves.accepted held)
  | replayed event later stored persists equal =>
      obtain ⟨next, found, advances⟩ := moves.advances stored
      exact .replayed event next found (persists.advance advances) equal
  | conflict event message stored differs =>
      obtain ⟨later, found, same, _⟩ := moves.advances stored
      exact .conflict later message found (by rw [same]; exact differs)
  | overflow event stored undefined =>
      obtain ⟨later, found, same, _⟩ := moves.advances stored
      exact .overflow later found (by rw [same]; exact undefined)
  | rejected response detail error parsed stored =>
      exact .rejected response detail error parsed (moves.final rfl stored)
  | unparsed stored => exact .unparsed (moves.final rfl stored)
  | unavailable disabled stored => exact .unavailable disabled (moves.final rfl stored)
  | abandoned abandons => exact .abandoned (abandons.step consistent taken)

/-- A submit carries its submission until an answer is decided, and the state bears the answer out. -/
def Submit.Acknowledges (storage : Storage) (settings : Settings) (process : Process)
    (submission : Submission) : Submit → Prop
  | .idle => False
  | .received own | .inserting own | .stored own _ | .calling own _ => own = submission
  | .conflicted own => own = submission ∧
      ∃ event, process.db.events.get submission.command.eventId = some event
  | .recording _ answer | .answered answer => answer.Vouched storage settings process submission

theorem Submit.Acknowledges.step {submit : Submit}
    (acknowledges : submit.Acknowledges storage settings process submission)
    (consistent : process.Consistent storage)
    (taken : process.step storage settings action = some after) :
    submit.Acknowledges storage settings after submission := by
  cases submit with
  | idle | received | inserting | stored | calling => exact acknowledges
  | conflicted =>
      obtain ⟨own, event, present⟩ := acknowledges
      obtain ⟨later, found, _⟩ := (consistent.step taken).2.advances present
      exact ⟨own, later, found⟩
  | recording | answered => exact Answer.Vouched.step acknowledges consistent taken

/-- A lookup that finds the stored event answers what the comparison says. -/
theorem Submission.Finds.acknowledges {submit : Submit} (finds : submission.Finds process.db submit) :
    submit.Acknowledges storage settings process submission := by
  cases finds with
  | overflow event present compared => exact .overflow event present compared
  | replay event present compared =>
      exact .replayed event event present ⟨rfl, fun _ => rfl⟩ compared
  | conflict event present compared details message =>
      exact .conflict event message present compared

/-- An insert fails only on an event that is stored. -/
theorem Submission.present_of_violated
    (violated : db.commit storage ⟨some (.insert submission.event), none, []⟩ = none) :
    ∃ event, db.events.get submission.command.eventId = some event := by
  rw [← Option.ne_none_iff_exists']
  intro absent
  obtain ⟨events, inserted⟩ := db.events.insert_of_get (submission.row storage) absent
  have flushed : EventWrite.flush storage db.events (some (.insert submission.event)) =
      some events := inserted
  simp [Database.commit, flushed, DeliveryWrite.flush] at violated

/-- The end of an await decides an answer that its commit bears out. -/
theorem Submission.settle_acknowledges {outcome : CallOutcome} {now : Rat} {work : Work}
    {submit : Submit}
    (pending : process.db.entry submission.command.eventId =
      ⟨some (submission.row storage), none⟩)
    (settled : submission.settle settings (submission.row storage) process.db now outcome =
      some (work, submit))
    (committed : process.db.commit storage work = some after.db) :
    submit.Acknowledges storage settings after submission := by
  obtain ⟨present, absent⟩ := Entry.mk.inj pending
  have stored {status : ProcessingStatus} (changes : status ≠ .pending)
      (committed : process.db.commit storage
        ⟨(submission.row storage).assign status, none, []⟩ = some after.db) :
      after.db.events.get submission.command.eventId =
        some ((submission.row storage).withStatus status) := by
    rw [submission.row_assign changes] at committed
    have entry := Database.commit_settle present committed submission.command.eventId
    rw [if_pos rfl] at entry
    exact congrArg Entry.event entry
  cases Submission.settles settled with
  | rejected response error =>
      have failed := stored (by decide) committed
      unfold rejected
      split
      · exact .unparsed failed
      · next detail parsed => exact .rejected response detail error parsed failed
  | applied => exact .applied (stored (by decide) committed)
  | queued =>
      rw [submission.row_assign (by decide), enqueue, absent] at committed
      have own : (submission.delivery now).eventId = submission.command.eventId := rfl
      have entry := Database.commit_queue present own committed submission.command.eventId
      rw [if_pos rfl] at entry
      exact .accepted (.inl ⟨_, entry, rfl⟩)
  | failed _ disabled =>
      exact .unavailable (by simpa using disabled) (stored (by decide) committed)

/-- Every step without a crash keeps the answer of a submit true. -/
theorem Process.Consistent.acknowledges {i : Nat} (consistent : process.Consistent storage)
    (running : action.crashes = false)
    (taken : process.step storage settings action = some after)
    (acknowledges : (process.submits i).Acknowledges storage settings process submission) :
    (after.submits i).Acknowledges storage settings after submission := by
  rcases Process.step_cases taken with ⟨j, submit, step, submits, _⟩ | ⟨_, submits⟩ | ⟨rfl, _⟩
  · by_cases own : i = j
    · subst own
      have later : after.submits i = submit := by rw [submits, Function.update_self]
      have owns := consistent.owns i
      rw [later]
      generalize current : process.submits i = before at step acknowledges owns
      generalize db : after.db = next at step
      cases step with
      | arrive => exact acknowledges.elim
      | lookup own =>
          obtain rfl := acknowledges
          rcases own.lookup_cases process.db with ⟨_, inserts⟩ | finds
          · rw [inserts]
            rfl
          · exact finds.acknowledges.step consistent taken
      | insert | call => exact acknowledges
      | rollback own violated =>
          obtain rfl := acknowledges
          obtain ⟨event, present⟩ := Submission.present_of_violated violated
          exact ⟨rfl, event, db ▸ present⟩
      | relookup own =>
          obtain ⟨rfl, event, present⟩ := acknowledges
          rcases own.relookup_cases process.db with ⟨absent, _⟩ | finds
          · cases absent.symm.trans present
          · exact finds.acknowledges.step consistent taken
      | settle own event outcome now settled committed =>
          obtain rfl := acknowledges
          obtain ⟨rfl, pending⟩ := owns own event rfl
          exact Submission.settle_acknowledges pending settled (db ▸ committed)
      | stale own event outcome now settled violated =>
          obtain ⟨rfl, pending⟩ := owns own event rfl
          exact absurd violated (settle_commits pending settled)
      | raise own event outcome now escaped =>
          obtain rfl := acknowledges
          obtain ⟨rfl, pending⟩ := owns own event rfl
          refine .abandoned ⟨db ▸ pending, rfl, fun j held owned same => ?_⟩
          -- The submit that has raised was the only owner.
          rcases owned_of_update (submits ▸ owned) with ⟨_, new⟩ | ⟨other, old⟩
          · cases new
          · exact other (consistent.distinct j i held _ old (by rw [current]; rfl) same)
      | record record answer committed => exact Answer.Vouched.step acknowledges consistent taken
    · rw [submits, Function.update_of_ne own]
      exact acknowledges.step consistent taken
  · rw [submits]
    exact acknowledges.step consistent taken
  · cases running

end Vouched

/-- Every answer that a submit receives stays true in every later state, over crashes too. -/
theorem answers_durable {last : Process} {i : Nat}
    (reached : (gateway storage settings).Reachable process)
    (received : process.submits i = .received submission)
    (leads : (uninterrupted storage settings).Leads process last)
    (answered : last.submits i = .answered answer)
    (later : (gateway storage settings).Leads last after) :
    answer.Vouched storage settings after submission := by
  obtain ⟨reachable, acknowledges⟩ := leads.persistsWithin
    (fun state => (state.submits i).Acknowledges storage settings state submission)
    (fun _ _ _ before held running taken =>
      (consistent_of_reachable before).acknowledges running taken held)
    reached (by rw [received]; rfl)
  rw [answered] at acknowledges
  exact later.persists (fun state => answer.Vouched storage settings state submission)
    (fun _ _ _ before held taken => held.step (consistent_of_reachable before) taken)
    reachable acknowledges

/-- A submit finds the Account Service unavailable. -/
def queuedSubmit : List Action :=
  [.advance 0, .advance 0, .advance 0, .resume 0 (.unavailable "timeout") 0]

/-- The process crashes, and the worker applies the event after the restart. -/
def appliedAfterCrash : List Action :=
  [.crash, .poll 0, .take "fresh", .deliver (.response ⟨201, "application/json", some "", none⟩) 0 .zero]

theorem answers_durable_queued : ∃ last after : Process, ∃ answer : Answer,
    (gateway .wallClock .default).run last appliedAfterCrash = some after ∧
    last.submits 0 = .answered answer ∧ answer.status = 202 ∧
    after.db.events.rows.map Event.processingStatus = [.applied] ∧
    answer.Vouched .wallClock .default after ⟨creditX.event, "trace"⟩ := by
  let submission : Submission := ⟨creditX.event, "trace"⟩
  let answer : Answer := .returned ((submission.row .wallClock).withStatus .queued) true
  have whole : ((gateway .wallClock .default).run (gateway .wallClock .default).initial
      [.arrive 0 submission]).bind (fun process =>
        ((uninterrupted .wallClock .default).run process queuedSubmit).bind fun last =>
          ((gateway .wallClock .default).run last appliedAfterCrash).map fun after =>
            (process.submits 0, last.submits 0, after.db.events.rows.map Event.processingStatus)) =
      some (.received submission, .answered answer, [.applied]) := by rfl
  obtain ⟨process, arrived, rest⟩ := Option.bind_eq_some_iff.mp whole
  obtain ⟨last, submitted, rest⟩ := Option.bind_eq_some_iff.mp rest
  obtain ⟨after, finished, seen⟩ := Option.map_eq_some_iff.mp rest
  obtain ⟨received, seen⟩ := Prod.mk.inj seen
  obtain ⟨answered, statuses⟩ := Prod.mk.inj seen
  exact ⟨last, after, answer, finished, answered, rfl, statuses,
    answers_durable (Machine.reachable_of_run _ .initial arrived) received
      (Machine.leads_of_run _ submitted) answered (Machine.leads_of_run _ finished)⟩

end EventLedger.EventGateway
