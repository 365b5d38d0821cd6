import EventLedger.AccountService.History
import EventLedger.AccountService.RecentTransactions
import EventLedger.EventGateway.EventService
import EventLedger.EventGateway.Listing

namespace EventLedger.Delivery
open Library Python EventGateway AccountService

section Instants
variable {storage : Storage} {gateway : EventGateway.Database} {ledger : AccountService.Database}
  {events : List Event} {transactions : List Transaction}
  (storesEvents : gateway.events.rows = events.map (Event.stored storage))
  (storesTransactions : ledger.transactions.rows = transactions.map (Transaction.stored storage))
  (drops : storage.dateTime = Datetime.dropOffset)
include storesEvents storesTransactions drops

/-- Both listings follow the instants exactly when the wall clocks order the rows alike. -/
theorem listings_by_instant_iff (accountId : String) {limit : Nat}
    (pageSize : 1 ≤ limit ∧ limit ≤ 200) (recent : Nat) :
    (gateway.ListsByInstant storage events accountId limit ↔
      ∀ a ∈ eventsOf events accountId, ∀ b ∈ eventsOf events accountId,
        instantKey a.eventTimestamp a.eventId ≤ instantKey b.eventTimestamp b.eventId →
          wallKey a.eventTimestamp a.eventId ≤ wallKey b.eventTimestamp b.eventId) ∧
    (ledger.RecentByInstant storage transactions accountId recent ↔
      ∀ a ∈ submittedTo transactions accountId, AmongLatest transactions recent a →
        ∀ b ∈ submittedTo transactions accountId,
          instantKey b.eventTimestamp b.eventId ≤ instantKey a.eventTimestamp a.eventId →
            wallKey b.eventTimestamp b.eventId ≤ wallKey a.eventTimestamp a.eventId) :=
  ⟨listsByInstant_iff_wall storesEvents drops accountId pageSize.1,
    recentByInstant_iff_wall storesTransactions drops accountId recent⟩

/-- Timestamps of one offset are listed by their instants. -/
theorem listings_of_one_offset (accountId : String) {limit : Nat}
    (pageSize : 1 ≤ limit ∧ limit ≤ 200) (recent : Nat) {offset : Int}
    (eventOffsets : ∀ event ∈ eventsOf events accountId, event.eventTimestamp.offset = offset)
    (transactionOffsets : ∀ row ∈ submittedTo transactions accountId,
      row.eventTimestamp.offset = offset) :
    gateway.ListsByInstant storage events accountId limit ∧
      ledger.RecentByInstant storage transactions accountId recent := by
  rw [listsByInstant_iff_wall storesEvents drops accountId pageSize.1,
    recentByInstant_iff_wall storesTransactions drops accountId recent]
  constructor
  · intro a inA b inB
    exact wallKey_le_of_offset ((eventOffsets a inA).trans (eventOffsets b inB).symm)
  · intro a inA _ b inB
    exact wallKey_le_of_offset
      ((transactionOffsets b inB).trans (transactionOffsets a inA).symm)

end Instants

/-- One hour after midnight of the first day of year 1, in UTC. -/
def oneHour : Datetime := { Datetime.epoch with wall := 3600000000, inYears := by decide }

/-- Two credits in UTC, the later one first. -/
def utcCredits : List TransactionCreate :=
  [{ creditY with eventTimestamp := oneHour, timezoneRequired := rfl }, creditX]

def utcEvents : List Event := utcCredits.map fun credit => (⟨credit.event, "trace"⟩ : Submission).event

def utcRequests : List Request := utcCredits.map fun credit => .direct credit "trace"

def utcGateway : EventGateway.Database :=
  ⟨⟨utcEvents.map (Event.stored .wallClock), by decide⟩, Table.empty _, []⟩

def utcLedger : AccountService.Database := (History.after .wallClock utcRequests).db

theorem listings_by_instant_utc :
    utcGateway.ListsByInstant .wallClock utcEvents "a" 50 ∧
      utcLedger.RecentByInstant .wallClock (utcRequests.map Request.transaction) "a" 20 := by
  have events : utcGateway.events.rows = utcEvents.map (Event.stored .wallClock) := rfl
  have transactions : utcLedger.transactions.rows =
      (utcRequests.map Request.transaction).map (Transaction.stored .wallClock) := by decide
  obtain ⟨lists, recent⟩ := listings_by_instant_iff events transactions rfl "a"
    (show 1 ≤ 50 ∧ 50 ≤ 200 by decide) 20
  exact ⟨lists.mpr (by decide), recent.mpr (by decide)⟩

/-- The first credit is an hour before the second one but has a later wall clock. -/
def offsetCredits : List TransactionCreate :=
  [creditEastern, { creditY with eventTimestamp := oneHour, timezoneRequired := rfl }]

def offsetEvents : List Event :=
  offsetCredits.map fun credit => (⟨credit.event, "trace"⟩ : Submission).event

def offsetRequests : List Request := offsetCredits.map fun credit => .direct credit "trace"

def offsetGateway : EventGateway.Database :=
  ⟨⟨offsetEvents.map (Event.stored .wallClock), by decide⟩, Table.empty _, []⟩

def offsetLedger : AccountService.Database := (History.after .wallClock offsetRequests).db

/-- Both services list the two credits by their wall clocks, against their instants. -/
theorem listings_by_wall_clock :
    ¬ offsetGateway.ListsByInstant .wallClock offsetEvents "a" 50 ∧
      ¬ offsetLedger.RecentByInstant .wallClock (offsetRequests.map Request.transaction) "a" 20 := by
  constructor
  · intro lists
    have alike := (listsByInstant_iff_wall rfl rfl "a" (by decide)).mp lists
    revert alike
    decide
  · intro recent
    have alike := (recentByInstant_iff_wall (by decide) rfl "a" 20).mp recent
    revert alike
    decide

end EventLedger.Delivery
