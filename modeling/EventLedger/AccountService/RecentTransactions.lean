import EventLedger.AccountService.Service

namespace EventLedger.AccountService
open Library Python

/-- The query sorts by the latest timestamp and then by the last event id. -/
def Transaction.recentKey (transaction : Transaction) : (Int ×ₗ String)ᵒᵈ :=
  OrderDual.toDual (instantKey transaction.eventTimestamp transaction.eventId)

/-- The query sorts the stored transactions of one account and returns the first of them. -/
def Database.recentTransactions (db : Database) (accountId : String) (limit : Nat) :
    List Transaction :=
  (orderBy Transaction.recentKey (db.transactionsOf accountId)).take limit

/-- The submitted transactions of one account. -/
def submittedTo (submitted : List Transaction) (accountId : String) : List Transaction :=
  submitted.filter fun row => decide (row.accountId = accountId)

/-- The query returns the latest transactions of the account by instant, the latest first. -/
def Database.RecentByInstant (storage : Storage) (db : Database) (submitted : List Transaction)
    (accountId : String) (limit : Nat) : Prop :=
  ∃ listed, FirstBy Transaction.recentKey (submittedTo submitted accountId) limit listed ∧
    db.recentTransactions accountId limit = listed.map (Transaction.stored storage)

/-- Few transactions of the account are later by instant than this one. -/
def AmongLatest (submitted : List Transaction) (limit : Nat) (transaction : Transaction) : Prop :=
  (submittedTo submitted transaction.accountId).countP (fun other =>
    decide (instantKey transaction.eventTimestamp transaction.eventId <
      instantKey other.eventTimestamp other.eventId)) < limit

instance (submitted : List Transaction) (limit : Nat) (transaction : Transaction) :
    Decidable (AmongLatest submitted limit transaction) := inferInstanceAs (Decidable (_ < _))

/-- The recent transactions follow the instants exactly when the stored keys order them alike. -/
theorem recentByInstant_iff {storage : Storage} {db : Database} {submitted : List Transaction}
    (stores : db.transactions.rows = submitted.map (Transaction.stored storage))
    (accountId : String) (limit : Nat) :
    db.RecentByInstant storage submitted accountId limit ↔
      ∀ a ∈ submittedTo submitted accountId, AmongLatest submitted limit a →
        ∀ b ∈ submittedTo submitted accountId,
          instantKey b.eventTimestamp b.eventId ≤ instantKey a.eventTimestamp a.eventId →
            instantKey (storage.dateTime b.eventTimestamp) b.eventId ≤
              instantKey (storage.dateTime a.eventTimestamp) a.eventId := by
  have distinct : ((submittedTo submitted accountId).map Transaction.eventId).Nodup := by
    have unique := db.transactions.unique
    rw [stores, List.map_map] at unique
    exact unique.sublist (List.filter_sublist.map _)
  have submittedKeys : ((submittedTo submitted accountId).map Transaction.recentKey).Nodup :=
    nodup_keys distinct fun row => row.eventTimestamp.instant
  have storedKeys : ((submittedTo submitted accountId).map
      (Transaction.recentKey ∘ Transaction.stored storage)).Nodup :=
    nodup_keys distinct fun row => (row.stored storage).eventTimestamp.instant
  have rows : db.transactionsOf accountId =
      (submittedTo submitted accountId).map (Transaction.stored storage) := by
    rw [Database.transactionsOf, stores, List.filter_map]
    rfl
  unfold Database.RecentByInstant Database.recentTransactions
  rw [rows, firstBy_stored_iff storedKeys submittedKeys]
  constructor
  · intro alike a member among
    refine alike a member ?_
    rw [← of_decide_eq_true (List.mem_filter.mp member).2]
    exact among
  · intro alike a member few
    refine alike a member ?_
    rw [AmongLatest, of_decide_eq_true (List.mem_filter.mp member).2]
    exact few

/-- Where the column drops the offset, the stored keys are the wall clocks. -/
theorem recentByInstant_iff_wall {storage : Storage} {db : Database} {submitted : List Transaction}
    (stores : db.transactions.rows = submitted.map (Transaction.stored storage))
    (drops : storage.dateTime = Datetime.dropOffset) (accountId : String) (limit : Nat) :
    db.RecentByInstant storage submitted accountId limit ↔
      ∀ a ∈ submittedTo submitted accountId, AmongLatest submitted limit a →
        ∀ b ∈ submittedTo submitted accountId,
          instantKey b.eventTimestamp b.eventId ≤ instantKey a.eventTimestamp a.eventId →
            wallKey b.eventTimestamp b.eventId ≤ wallKey a.eventTimestamp a.eventId := by
  rw [recentByInstant_iff stores accountId limit]
  simp only [drops, instantKey_dropOffset]

end EventLedger.AccountService
