import EventLedger.EventGateway.Listing
import EventLedger.EventGateway.StatusTransitions
import EventLedger.Library.Paging

namespace EventLedger.EventGateway
open Library Python

variable {storage : Storage} {settings : Settings} {db : Database} {process later : Process}
  {account : String}

structure EventListResponse where
  accountId : String
  items : List Event
  count : Nat
  limit : Int
  offset : Int

/-- The route refuses an empty account and a page outside its bounds. -/
def Database.listEvents (db : Database) (account : String) (limit offset : Int) :
    Option EventListResponse :=
  if 1 ≤ account.length ∧ 1 ≤ limit ∧ limit ≤ 200 ∧ 0 ≤ offset then
    let items := db.listForAccount account limit.toNat offset.toNat
    some ⟨account, items, items.length, limit, offset⟩
  else none

/-- The keys by which the events of one account are listed. -/
def Database.listingKeys (db : Database) (account : String) : List (Int ×ₗ String) :=
  (eventsOf db.events.rows account).map Event.listingKey

theorem Database.listingKeys_nodup (db : Database) (account : String) :
    (db.listingKeys account).Nodup :=
  nodup_keys (db.events.unique.sublist (List.filter_sublist.map _)) fun event =>
    event.eventTimestamp.instant

/-- A key belongs to the stored event that it names. -/
theorem Database.mem_listingKeys {key : Int ×ₗ String} : key ∈ db.listingKeys account ↔
    ∃ event, db.events.get event.eventId = some event ∧ event.accountId = account ∧
      event.listingKey = key := by
  rw [listingKeys, List.mem_map]
  constructor
  · rintro ⟨event, member, same⟩
    obtain ⟨stored, own⟩ := List.mem_filter.mp member
    exact ⟨event, Table.get_of_mem stored, of_decide_eq_true own, same⟩
  · rintro ⟨event, stored, own, same⟩
    exact ⟨event, List.mem_filter.mpr ⟨Table.mem_of_get stored, decide_eq_true own⟩, same⟩

/-- A stored event persists along every later run. -/
theorem event_persists (reached : (gateway storage settings).Reachable process)
    (leads : (gateway storage settings).Leads process later) {eventId : String} {event : Event}
    (stored : process.db.events.get eventId = some event) :
    ∃ shown, later.db.events.get eventId = some shown ∧ event.Persists shown := by
  refine leads.persists
    (fun state => ∃ shown, state.db.events.get eventId = some shown ∧ event.Persists shown)
    (fun state action after before held taken => ?_) reached ⟨event, stored, rfl, fun _ => rfl⟩
  obtain ⟨middle, found, persists⟩ := held
  obtain ⟨shown, present, advances⟩ :=
    ((consistent_of_reachable before).step taken).2.advances found
  exact ⟨shown, present, persists.advance advances⟩

/-- An event that persists is listed under its key. -/
theorem Event.Persists.listed {event shown : Event} (persists : event.Persists shown) :
    shown.eventId = event.eventId ∧ shown.accountId = event.accountId ∧
      shown.listingKey = event.listingKey := by
  rw [persists.1]
  exact ⟨rfl, rfl, rfl⟩

/-- A later state lists all keys of an earlier one. -/
theorem listingKeys_subset (reached : (gateway storage settings).Reachable process)
    (leads : (gateway storage settings).Leads process later) :
    process.db.listingKeys account ⊆ later.db.listingKeys account := by
  intro key member
  obtain ⟨event, stored, own, rfl⟩ := Database.mem_listingKeys.mp member
  obtain ⟨shown, present, persists⟩ := event_persists reached leads stored
  obtain ⟨eventId, accountId, same⟩ := persists.listed
  exact Database.mem_listingKeys.mpr ⟨shown, eventId ▸ present, accountId.trans own, same⟩

/-- An answered page is a page of the listing. -/
theorem Database.listEvents_eq_some {limit offset : Int} {answer : EventListResponse}
    (answered : db.listEvents account limit offset = some answer) :
    1 ≤ limit ∧ answer.count = answer.items.length ∧
      answer.items = pageBy Event.listingKey (eventsOf db.events.rows account) limit.toNat
        offset.toNat := by
  obtain ⟨⟨_, positive, _⟩, same⟩ := Option.ite_none_right_eq_some.mp answered
  rw [← Option.some.inj same]
  exact ⟨positive, rfl, rfl⟩

/-- The keys on an answered page are the page of the keys. -/
theorem Database.listEvents_keys {limit offset : Int} {answer : EventListResponse}
    (answered : db.listEvents account limit offset = some answer) :
    answer.items.map Event.listingKey =
      pageBy id (db.listingKeys account) limit.toNat offset.toNat := by
  rw [(Database.listEvents_eq_some answered).2.2, pageBy_map]
  rfl

/-- While submits and worker passes go on, a client that reads page after page until one is not full
has seen every event of the account that was stored when it began. -/
theorem paging_misses_nothing {states : Nat → Process} {answers : Nat → EventListResponse}
    {limit : Int} {last : Nat} {event : Event}
    (reached : (gateway storage settings).Reachable (states 0))
    (leads : ∀ page, (gateway storage settings).Leads (states page) (states (page + 1)))
    (answered : ∀ page, (states page).db.listEvents account limit (page * limit) =
      some (answers page))
    (short : (answers last).count < limit)
    (stored : (states 0).db.events.get event.eventId = some event)
    (own : event.accountId = account) :
    ∃ page ≤ last, ∃ shown ∈ (answers page).items, event.Persists shown := by
  have run (page : Nat) : (gateway storage settings).Leads (states 0) (states page) := by
    induction page with
    | zero => exact Relation.ReflTransGen.refl
    | succ page ih => exact ih.trans (leads page)
  obtain ⟨positive, count, _⟩ := Database.listEvents_eq_some (answered last)
  have offset (page : Nat) : ((page : Int) * limit).toNat = page * limit.toNat := by
    rw [Int.toNat_mul (Int.natCast_nonneg page) (by omega), Int.toNat_natCast]
  have keys (page : Nat) := Database.listEvents_keys (answered page)
  simp only [offset] at keys
  have ends : (pageBy id ((states last).db.listingKeys account) limit.toNat
      (last * limit.toNat)).length < limit.toNat := by
    rw [← keys, List.length_map, ← count]
    omega
  have first : event.listingKey ∈ (states 0).db.listingKeys account :=
    Database.mem_listingKeys.mpr ⟨event, stored, own, rfl⟩
  have grows (page : Nat) :
      (states page).db.listingKeys account ⊆ (states (page + 1)).db.listingKeys account :=
    listingKeys_subset ((run page).reachable reached) (leads page)
  obtain ⟨page, read, shows⟩ :=
    exists_page_of_grows (fun page => (states page).db.listingKeys_nodup account) grows first ends
  rw [← keys, List.mem_map] at shows
  obtain ⟨shown, member, same⟩ := shows
  refine ⟨page, read, shown, member, ?_⟩
  have eventId : shown.eventId = event.eventId :=
    congrArg (fun key : Int ×ₗ String => (ofLex key).2) same
  rw [(Database.listEvents_eq_some (answered page)).2.2] at member
  have row : shown ∈ (states page).db.events.rows := by
    have among := List.mem_of_mem_drop (List.mem_of_mem_take member)
    exact (List.mem_filter.mp ((orderBy_ordered _ _).1.mem_iff.mp among)).1
  obtain ⟨other, present, persists⟩ := event_persists reached (run page) stored
  have found := Table.get_of_mem row
  rw [eventId, present] at found
  rwa [← Option.some.inj found]

/-- The first event is stored before the first page is read, and a second one before the others. -/
def storedFirst : List Action := [.arrive 0 ⟨creditX.event, "trace"⟩, .advance 0, .advance 0]

def storedSecond : List Action := [.arrive 1 ⟨creditY.event, "trace"⟩, .advance 1, .advance 1]

def growingActions : Nat → List Action
  | 0 => storedFirst
  | _ + 1 => storedFirst ++ storedSecond

def growingState (page : Nat) : Process :=
  ((gateway .wallClock .default).run (gateway .wallClock .default).initial (growingActions page)).getD
    (gateway .wallClock .default).initial

def growingAnswer (page : Nat) : EventListResponse :=
  let items := (growingState page).db.listForAccount "a" 1 ((page : Int) * 1).toNat
  ⟨"a", items, items.length, 1, page * 1⟩

theorem growingState_ran (page : Nat) : (gateway .wallClock .default).run
    (gateway .wallClock .default).initial (growingActions page) = some (growingState page) := by
  have ends : ((gateway .wallClock .default).run (gateway .wallClock .default).initial
      (growingActions page)).isSome := by
    cases page with
    | zero => decide
    | succ page =>
        rw [growingActions]
        decide
  obtain ⟨state, ran⟩ := Option.isSome_iff_exists.mp ends
  rw [growingState, ran, Option.getD_some]

theorem growingState_leads (page : Nat) : (gateway .wallClock .default).Leads (growingState page)
    (growingState (page + 1)) := by
  cases page with
  | zero =>
      have ran := growingState_ran 1
      rw [growingActions, Machine.run_append, show storedFirst = growingActions 0 from rfl,
        growingState_ran 0] at ran
      exact Machine.leads_of_run storedSecond ran
  | succ page => exact Relation.ReflTransGen.refl

theorem growingAnswer_listed (page : Nat) :
    (growingState page).db.listEvents "a" 1 (page * 1) = some (growingAnswer page) := by
  have bounds : 1 ≤ "a".length ∧ (1 : Int) ≤ 1 ∧ (1 : Int) ≤ 200 ∧ 0 ≤ (page : Int) * 1 :=
    ⟨by decide, by decide, by decide, by omega⟩
  rw [Database.listEvents, if_pos bounds]
  rfl

theorem paging_misses_nothing_growing : ∃ page ≤ 2, ∃ shown ∈ (growingAnswer page).items,
    ((⟨creditX.event, "trace"⟩ : Submission).row .wallClock).Persists shown :=
  paging_misses_nothing (Machine.reachable_of_run storedFirst .initial (growingState_ran 0))
    growingState_leads growingAnswer_listed (by decide) rfl rfl

end EventLedger.EventGateway
