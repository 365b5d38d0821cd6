import EventLedger.EventGateway.Database

namespace EventLedger.EventGateway
open Library Python

/-- The events of one account. -/
def eventsOf (rows : List Event) (accountId : String) : List Event :=
  rows.filter fun row => decide (row.accountId = accountId)

/-- The listing sorts by the timestamp and then by the event id. -/
def Event.listingKey (event : Event) : Int ×ₗ String :=
  instantKey event.eventTimestamp event.eventId

/-- The query sorts the stored events of one account and returns one page of them. -/
def Database.listForAccount (db : Database) (accountId : String) (limit offset : Nat) :
    List Event :=
  ((orderBy Event.listingKey (eventsOf db.events.rows accountId)).drop offset).take limit

/-- The pages at the offsets zero, one page size, two page sizes and so on. -/
def Database.pages (db : Database) (accountId : String) (limit count : Nat) : List Event :=
  (List.range count).flatMap fun page => db.listForAccount accountId limit (page * limit)

/-- Enough pages hold each submitted event of the account once, in the order of the instants. -/
def Database.ListsByInstant (storage : Storage) (db : Database) (submitted : List Event)
    (accountId : String) (limit : Nat) : Prop :=
  ∀ count, (eventsOf submitted accountId).length ≤ count * limit →
    ∃ listed, Ordered Event.listingKey (eventsOf submitted accountId) listed ∧
      db.pages accountId limit count = listed.map (Event.stored storage)

section Listing
variable {storage : Storage} {db : Database} {submitted : List Event}
  (stores : db.events.rows = submitted.map (Event.stored storage))
include stores

theorem stored_eventsOf (accountId : String) :
    eventsOf db.events.rows accountId =
      (eventsOf submitted accountId).map (Event.stored storage) := by
  rw [eventsOf, stores, List.filter_map]
  rfl

theorem submitted_distinct (accountId : String) :
    ((eventsOf submitted accountId).map Event.eventId).Nodup := by
  have unique := db.events.unique
  rw [stores, List.map_map] at unique
  exact unique.sublist (List.filter_sublist.map _)

/-- Enough pages are the whole sorted list. -/
theorem pages_eq (accountId : String) {limit count : Nat}
    (enough : (eventsOf submitted accountId).length ≤ count * limit) :
    db.pages accountId limit count =
      orderBy Event.listingKey ((eventsOf submitted accountId).map (Event.stored storage)) := by
  simp only [Database.pages, Database.listForAccount]
  rw [flatMap_pages, stored_eventsOf stores]
  refine List.take_of_length_le ?_
  rw [(orderBy_ordered _ _).1.length_eq, List.length_map]
  exact enough

/-- The pages follow the instants exactly when the stored keys order the events alike. -/
theorem listsByInstant_iff (accountId : String) {limit : Nat} (positive : 1 ≤ limit) :
    db.ListsByInstant storage submitted accountId limit ↔
      ∀ a ∈ eventsOf submitted accountId, ∀ b ∈ eventsOf submitted accountId,
        a.listingKey ≤ b.listingKey → (a.stored storage).listingKey ≤ (b.stored storage).listingKey := by
  have distinct := submitted_distinct stores accountId
  have submittedKeys : ((eventsOf submitted accountId).map Event.listingKey).Nodup :=
    nodup_keys distinct fun event => event.eventTimestamp.instant
  have storedKeys : ((eventsOf submitted accountId).map
      (Event.listingKey ∘ Event.stored storage)).Nodup :=
    nodup_keys distinct fun event => (event.stored storage).eventTimestamp.instant
  rw [← ordered_stored_iff storedKeys submittedKeys]
  constructor
  · intro lists
    have enough : (eventsOf submitted accountId).length ≤
        (eventsOf submitted accountId).length * limit := Nat.le_mul_of_pos_right _ positive
    have listed := lists _ enough
    rw [pages_eq stores accountId enough] at listed
    exact listed
  · intro listed count enough
    rw [pages_eq stores accountId enough]
    exact listed

/-- Where the column drops the offset, the stored keys are the wall clocks. -/
theorem listsByInstant_iff_wall (drops : storage.dateTime = Datetime.dropOffset)
    (accountId : String) {limit : Nat} (positive : 1 ≤ limit) :
    db.ListsByInstant storage submitted accountId limit ↔
      ∀ a ∈ eventsOf submitted accountId, ∀ b ∈ eventsOf submitted accountId,
        instantKey a.eventTimestamp a.eventId ≤ instantKey b.eventTimestamp b.eventId →
          wallKey a.eventTimestamp a.eventId ≤ wallKey b.eventTimestamp b.eventId := by
  rw [listsByInstant_iff stores accountId positive]
  simp only [Event.listingKey, Event.stored, drops, instantKey_dropOffset]

end Listing
end EventLedger.EventGateway
