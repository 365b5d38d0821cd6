import EventLedger.AccountService.RecentTransactions
import EventLedger.Delivery.Reconciliation
import EventLedger.EventGateway.Listing

namespace EventLedger.Delivery
open Library Python EventGateway

/-- Both services sort what they post by the instant and then by the event id. -/
def Posting.key (posting : Posting) : Int ×ₗ String :=
  instantKey posting.eventTimestamp posting.eventId

/-- The delivery of an event has created its transaction. -/
def System.hasLanded (system : System) (event : Event) : Bool :=
  (system.account.transactions.get event.eventId).isSome

variable {environment : Environment} {system : System} {accountId : String}

theorem System.landed_eq (system : System) (accountId : String) :
    system.landed accountId =
      (eventsOf system.gateway.db.events.rows accountId).filter system.hasLanded := by
  rw [System.landed, eventsOf, List.filter_filter]
  refine List.filter_congr fun event _ => ?_
  rw [Bool.and_comm, System.hasLanded]

theorem eventsOf_keys (system : System) (accountId : String) :
    ((eventsOf system.gateway.db.events.rows accountId).map Event.listingKey).Nodup :=
  nodup_keys (system.gateway.db.events.unique.sublist (List.filter_sublist.map _)) fun event =>
    event.eventTimestamp.instant

/-- Enough pages of the gateway list all events of the account in order. -/
theorem pages_of_enough (db : EventGateway.Database) {limit count : Nat}
    (enough : (eventsOf db.events.rows accountId).length ≤ count * limit) :
    db.pages accountId limit count =
      orderBy Event.listingKey (eventsOf db.events.rows accountId) := by
  simp only [Database.pages, Database.listForAccount]
  rw [flatMap_pages]
  refine List.take_of_length_le ?_
  rw [(orderBy_ordered _ _).1.length_eq]
  exact enough

/-- While only the gateway posts transactions, the recent transactions of an account are the last
landed events of the gateway listing, the latest first. -/
theorem recent_transactions_mirror_listing (gatewayLossless : environment.gatewayStorage.Exact)
    (accountLossless : environment.accountStorage.Exact)
    (alike : environment.gatewayStorage.dateTime = environment.accountStorage.dateTime)
    (reached : (twoServices environment).ReachedWithin (fun _ action => action.posts = false) system)
    {limit count : Nat}
    (enough : (eventsOf system.gateway.db.events.rows accountId).length ≤ count * limit)
    (recent : Nat) :
    (system.account.recentTransactions accountId recent).map Posting.ofTransaction =
      (((system.gateway.db.pages accountId limit count).filter system.hasLanded).reverse.take
        recent).map Posting.ofEvent := by
  have postings := (sourced_of_reached reached).perm gatewayLossless accountLossless alike
    reached.reachable accountId
  have events : ((system.landed accountId).map Event.listingKey).Nodup := by
    rw [System.landed_eq]
    exact (eventsOf_keys system accountId).sublist (List.filter_sublist.map _)
  have keys : (((system.landed accountId).map Posting.ofEvent).map Posting.key).Nodup := by
    rw [List.map_map]
    exact events
  have opposite : ((((system.account.transactionsOf accountId).map Posting.ofTransaction)).map
      (OrderDual.toDual ∘ Posting.key)).Nodup := by
    rw [← List.map_map]
    exact (((postings.map Posting.key).nodup_iff).mpr keys).map OrderDual.toDual.injective
  calc (system.account.recentTransactions accountId recent).map Posting.ofTransaction
      = (orderBy (OrderDual.toDual ∘ Posting.key)
          ((system.account.transactionsOf accountId).map Posting.ofTransaction)).take recent := by
        rw [orderBy_map, ← List.map_take]
        rfl
    _ = (orderBy (OrderDual.toDual ∘ Posting.key)
          ((system.landed accountId).map Posting.ofEvent)).take recent := by
        rw [orderBy_perm opposite postings]
    _ = (orderBy Posting.key ((system.landed accountId).map Posting.ofEvent)).reverse.take recent := by
        rw [orderBy_toDual keys]
    _ = ((orderBy Event.listingKey (system.landed accountId)).reverse.take recent).map
          Posting.ofEvent := by
        rw [orderBy_map, ← List.map_reverse, ← List.map_take]
        rfl
    _ = (((system.gateway.db.pages accountId limit count).filter system.hasLanded).reverse.take
          recent).map Posting.ofEvent := by
        rw [System.landed_eq, orderBy_filter (eventsOf_keys system accountId),
          pages_of_enough _ enough]

/-- Two events of one account are applied one after the other. -/
def twoApplied : List Delivery.Action :=
  retried creditX.body 200 ++
    [.arrive 1 creditY.body none "trace", .advance 1, .advance 1, .advance 1,
      .call (.submit 1) 4, .process 2 "fresh",
      .receive (.submit 1) ⟨201, "application/json", some "", none⟩ 5, .resume (.submit 1) 5 .zero]

theorem recent_transactions_mirror_listing_two : ∃ state,
    (reconciling wallClockEnvironment).run (reconciling wallClockEnvironment).initial twoApplied =
      some state ∧
    (state.account.recentTransactions "a" 20).map Posting.ofTransaction =
      (((state.gateway.db.pages "a" 50 1).filter state.hasLanded).reverse.take 20).map
        Posting.ofEvent := by
  obtain ⟨state, ran⟩ := Option.isSome_iff_exists.mp
    (show ((reconciling wallClockEnvironment).run (reconciling wallClockEnvironment).initial
      twoApplied).isSome by decide)
  have few : ((reconciling wallClockEnvironment).run (reconciling wallClockEnvironment).initial
      twoApplied).map (fun state => (eventsOf state.gateway.db.events.rows "a").length) = some 2 := by
    decide +kernel
  rw [ran] at few
  have length : (eventsOf state.gateway.db.events.rows "a").length = 2 := Option.some.inj few
  exact ⟨state, ran, recent_transactions_mirror_listing Storage.wallClock_exact Storage.wallClock_exact rfl
    ((Machine.reachedWithin_of_run _ .initial ran).mono fun _ _ condition => condition.2)
    (by rw [length]; decide) 20⟩

end EventLedger.Delivery
