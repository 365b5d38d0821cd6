import EventLedger.AccountService.History

namespace EventLedger.AccountService
open Library Python

/-- Two commands carry the same transaction data up to the timestamp. -/
def SameData (first second : TransactionCreate) : Prop :=
  first.accountId = second.accountId ∧ first.type = second.type ∧
    first.amount = second.amount ∧ first.currency = second.currency

instance (first second : TransactionCreate) : Decidable (SameData first second) :=
  inferInstanceAs (Decidable (_ ∧ _))

/-- The event id is new and the account is absent or has the currency of the command. -/
def History.Admits (history : History) (command : TransactionCreate) : Prop :=
  (∀ earlier ∈ history.accepted, earlier.command.eventId ≠ command.eventId) ∧
    ∀ account, history.db.accounts.get command.accountId = some account →
      account.currency = command.currency

/-- An earlier accepted command has the same event id, data and instant. -/
def History.Replays (history : History) (command : TransactionCreate) : Prop :=
  ∃ earlier ∈ history.accepted, earlier.command.eventId = command.eventId ∧
    SameData earlier.command command ∧
    earlier.command.eventTimestamp.instant = command.eventTimestamp.instant

/-- The documented answer is 201 for a new event, 200 for an identical one and 409 otherwise. -/
def History.Trichotomy (history : History) (command : TransactionCreate) (status : Nat) : Prop :=
  (status = 201 ↔ history.Admits command) ∧ (status = 200 ↔ history.Replays command) ∧
    (status = 409 ↔ ¬ history.Admits command ∧ ¬ history.Replays command)

/-- Each earlier accepted command with the same event id and data has offset zero, or its wall clock
and its instant both differ from the instant of the command, which converts without overflow. -/
def History.TimestampsClear (history : History) (command : TransactionCreate) : Prop :=
  ∀ earlier ∈ history.accepted, earlier.command.eventId = command.eventId →
    SameData earlier.command command →
    command.eventTimestamp.utcNaive ≠ none ∧
      (earlier.command.eventTimestamp.offset = 0 ∨
        (earlier.command.eventTimestamp.wall ≠ command.eventTimestamp.instant ∧
          earlier.command.eventTimestamp.instant ≠ command.eventTimestamp.instant))

section Answered
variable {requests : List Request} {command : TransactionCreate} {traceId : String}

/-- The answer to a command is the answer of its first work. -/
theorem direct_status (db : Database) :
    ((Request.direct command traceId).apply .wallClock db).2.status =
      ((Request.direct command traceId).begin .wallClock db).answer.status := by
  rw [((Request.direct command traceId).apply_eq .wallClock db).2]

/-- The stored transactions with one event id come from the accepted commands with that id. -/
theorem History.get_eq_some {earlier : Request}
    (member : earlier ∈ (History.after .wallClock requests).accepted) :
    (History.after .wallClock requests).db.transactions.get earlier.command.eventId =
      some (earlier.transaction.stored .wallClock) := by
  have stored : earlier.transaction.stored .wallClock ∈
      (History.after .wallClock requests).db.transactions.rows := by
    rw [History.rows_eq_accepted]
    exact List.mem_map_of_mem member
  exact Table.get_of_mem stored

/-- At most one accepted request has a given event id. -/
theorem History.accepted_unique {first second : Request}
    (firstMember : first ∈ (History.after .wallClock requests).accepted)
    (secondMember : second ∈ (History.after .wallClock requests).accepted)
    (same : first.command.eventId = second.command.eventId) : first = second := by
  have unique := (History.after .wallClock requests).db.transactions.unique
  rw [History.rows_eq_accepted, List.map_map] at unique
  exact List.inj_on_of_nodup_map unique firstMember secondMember same

theorem History.get_eq_none
    (fresh : ∀ earlier ∈ (History.after .wallClock requests).accepted,
      earlier.command.eventId ≠ command.eventId) :
    (History.after .wallClock requests).db.transactions.get command.eventId = none := by
  rw [Table.get_eq_none, History.rows_eq_accepted]
  intro row member
  obtain ⟨earlier, accepted, rfl⟩ := List.mem_map.mp member
  exact fresh earlier accepted

/-- A new event id is answered 201, or 409 when the account has another currency. -/
theorem fresh_trichotomy
    (fresh : ∀ earlier ∈ (History.after .wallClock requests).accepted,
      earlier.command.eventId ≠ command.eventId) :
    (History.after .wallClock requests).Trichotomy command
      ((Request.direct command traceId).apply .wallClock (History.after .wallClock requests).db).2.status := by
  have replays : ¬ (History.after .wallClock requests).Replays command := by
    rintro ⟨earlier, member, same, _⟩
    exact fresh earlier member same
  rw [direct_status, History.Trichotomy]
  simp only [Request.begin, Request.direct, ne_eq, not_true_eq_false, if_false,
    History.get_eq_none fresh]
  cases present : (History.after .wallClock requests).db.accounts.get command.accountId with
  | none =>
      have admits : (History.after .wallClock requests).Admits command :=
        ⟨fresh, fun account found => by rw [present] at found; cases found⟩
      simp [Request.write, Answer.status, admits, replays]
  | some account =>
      by_cases currency : account.currency = command.currency
      · have admits : (History.after .wallClock requests).Admits command :=
          ⟨fresh, fun other found => by
            rw [present] at found
            exact Option.some.inj found ▸ currency⟩
        simp [currency, Request.write, Answer.status, admits, replays]
      · have admits : ¬ (History.after .wallClock requests).Admits command :=
          fun admitted => currency (admitted.2 account present)
        simp [currency, Work.audited, currencyMismatch, Answer.status, admits, replays]

/-- A replayed transaction has an account, so the replay is answered 200. -/
theorem replayAnswer_status {db : Database} (owned : db.Owned) {row : Transaction}
    {eventId : String} (present : db.transactions.get eventId = some row) :
    (replayAnswer row (db.accounts.get row.accountId)).status = 200 := by
  obtain ⟨account, found, _⟩ := owned row (Table.mem_of_get present)
  rw [found]
  rfl

/-- A used event id is answered by the comparison with the stored transaction. -/
theorem used_status {earlier : Request}
    (member : earlier ∈ (History.after .wallClock requests).accepted)
    (same : earlier.command.eventId = command.eventId) :
    ((Request.direct command traceId).apply .wallClock (History.after .wallClock requests).db).2.status =
      match sameTransaction (earlier.transaction.stored .wallClock) command with
      | none => 500
      | some false => 409
      | some true => 200 := by
  have present := History.get_eq_some member
  rw [same] at present
  rw [direct_status]
  simp only [Request.begin, Request.direct, ne_eq, not_true_eq_false, if_false, present]
  cases compared : sameTransaction (earlier.transaction.stored .wallClock) command with
  | none => rfl
  | some identical =>
      cases identical with
      | false => rfl
      | true =>
          have sameAccount : command.accountId =
              (earlier.transaction.stored .wallClock).accountId := by
            unfold sameTransaction at compared
            split at compared
            · next data => exact data.1.symm
            · cases compared
          simp only [Request.replay, Work.audited]
          rw [sameAccount]
          exact replayAnswer_status (History.owned .wallClock requests) present

/-- The comparison reads the wall clock of the earlier command as UTC. -/
theorem sameTransaction_stored {earlier : Request}
    (addressed : earlier.accountId = earlier.command.accountId) :
    sameTransaction (earlier.transaction.stored .wallClock) command =
      if SameData earlier.command command then
        command.eventTimestamp.utcNaive.map fun received =>
          decide (earlier.command.eventTimestamp.dropOffset = received)
      else some false := by
  simp only [sameTransaction, Transaction.stored, Request.transaction, Storage.wallClock, addressed,
    Datetime.dropOffset_utcNaive, Option.bind_eq_bind, Option.bind_some]
  cases command.eventTimestamp.utcNaive <;> rfl

/-- A command under a used event id replays the request that was accepted under it or none. -/
theorem replays_iff_of_used {earlier : Request}
    (member : earlier ∈ (History.after .wallClock requests).accepted)
    (same : earlier.command.eventId = command.eventId) :
    (History.after .wallClock requests).Replays command ↔
      SameData earlier.command command ∧
        earlier.command.eventTimestamp.instant = command.eventTimestamp.instant := by
  constructor
  · rintro ⟨other, accepted, sameId, data⟩
    obtain rfl := History.accepted_unique accepted member (sameId.trans same.symm)
    exact data
  · exact fun data => ⟨earlier, member, same, data⟩

/-- The timestamps of a used event id are clear when those of its accepted request are. -/
theorem timestampsClear_iff_of_used {earlier : Request}
    (member : earlier ∈ (History.after .wallClock requests).accepted)
    (same : earlier.command.eventId = command.eventId) :
    (History.after .wallClock requests).TimestampsClear command ↔
      (SameData earlier.command command → command.eventTimestamp.utcNaive ≠ none ∧
        (earlier.command.eventTimestamp.offset = 0 ∨
          (earlier.command.eventTimestamp.wall ≠ command.eventTimestamp.instant ∧
            earlier.command.eventTimestamp.instant ≠ command.eventTimestamp.instant))) := by
  constructor
  · exact fun all => all earlier member same
  · intro one other accepted sameId
    obtain rfl := History.accepted_unique accepted member (sameId.trans same.symm)
    exact one

/-- A used event id is answered as documented exactly when the timestamps are clear. -/
theorem used_trichotomy_iff {earlier : Request}
    (member : earlier ∈ (History.after .wallClock requests).accepted)
    (same : earlier.command.eventId = command.eventId) :
    (History.after .wallClock requests).Trichotomy command
        ((Request.direct command traceId).apply .wallClock (History.after .wallClock requests).db).2.status ↔
      (History.after .wallClock requests).TimestampsClear command := by
  have addressed := History.accepted_addressed .wallClock requests earlier member
  have admits : ¬ (History.after .wallClock requests).Admits command :=
    fun admitted => admitted.1 earlier member same
  rw [used_status member same, sameTransaction_stored addressed,
    timestampsClear_iff_of_used member same, History.Trichotomy, replays_iff_of_used member same]
  by_cases data : SameData earlier.command command
  · cases converted : command.eventTimestamp.utcNaive with
    | none => simp [data, admits]
    | some naive =>
        have instant : earlier.command.eventTimestamp.instant =
          earlier.command.eventTimestamp.wall - earlier.command.eventTimestamp.offset := rfl
        -- The code answers by the wall clock and the documentation by the instant.
        have agree : (earlier.command.eventTimestamp.offset = 0 ∨
            (earlier.command.eventTimestamp.wall ≠ command.eventTimestamp.instant ∧
              earlier.command.eventTimestamp.instant ≠ command.eventTimestamp.instant)) ↔
            (earlier.command.eventTimestamp.wall = command.eventTimestamp.instant ↔
              earlier.command.eventTimestamp.instant = command.eventTimestamp.instant) := by
          omega
        rw [agree]
        simp only [data, if_true, Option.map_some,
          Datetime.dropOffset_eq_iff earlier.command.eventTimestamp converted]
        by_cases hit : earlier.command.eventTimestamp.wall = command.eventTimestamp.instant <;>
          by_cases replay : earlier.command.eventTimestamp.instant =
            command.eventTimestamp.instant <;>
          simp [hit, replay, admits]
  · simp [data, admits]

/-- A command is answered 201, 200 or 409 as documented exactly when the timestamps are clear. -/
theorem trichotomy_iff (requests : List Request) (command : TransactionCreate) (traceId : String) :
    (History.after .wallClock requests).Trichotomy command
        ((Request.direct command traceId).apply .wallClock (History.after .wallClock requests).db).2.status ↔
      (History.after .wallClock requests).TimestampsClear command := by
  by_cases used : ∃ earlier ∈ (History.after .wallClock requests).accepted,
      earlier.command.eventId = command.eventId
  · obtain ⟨earlier, member, same⟩ := used
    exact used_trichotomy_iff member same
  · have fresh : ∀ earlier ∈ (History.after .wallClock requests).accepted,
        earlier.command.eventId ≠ command.eventId :=
      fun earlier member same => used ⟨earlier, member, same⟩
    exact iff_of_true (fresh_trichotomy fresh)
      fun earlier member same => absurd same (fresh earlier member)

end Answered

theorem offset_replay_not_trichotomy :
    ¬ (History.after .wallClock [Request.direct creditEastern "trace"]).Trichotomy creditEastern
      ((Request.direct creditEastern "trace").apply .wallClock
        (History.after .wallClock [Request.direct creditEastern "trace"]).db).2.status := by
  intro trichotomy
  have accepted : (History.after .wallClock [Request.direct creditEastern "trace"]).accepted =
      [Request.direct creditEastern "trace"] := by decide
  have replayed := trichotomy.2.1.mpr ⟨Request.direct creditEastern "trace",
    accepted ▸ List.mem_singleton_self _, rfl, ⟨rfl, rfl, rfl, rfl⟩, rfl⟩
  revert replayed
  decide

end EventLedger.AccountService
