import EventLedger.AccountService.History
import Mathlib.Algebra.Order.BigOperators.Group.Finset
import Mathlib.Algebra.Order.Group.Abs

namespace EventLedger.AccountService
open Library Python

variable {storage : Storage} {requests : List Request} {request : Request} {db next : Database}

/-- The distinct commands of a sequence of requests. -/
def commandsOf (requests : List Request) : Finset TransactionCreate :=
  (requests.map Request.command).toFinset

/-- A credit counts its amount and a debit counts it negatively. -/
def signedUnits (command : TransactionCreate) : Int :=
  match command.type with
  | .credit => command.amount.units
  | .debit => -command.amount.units

/-- The signed sum counts each distinct command of an account once. -/
def commandSum (requests : List Request) (accountId : String) : Int :=
  ∑ command ∈ commandsOf requests with command.accountId = accountId, signedUnits command

/-- Every request names the account of its command, and equal event ids mean equal commands. -/
structure WellAddressed (requests : List Request) : Prop where
  addressed : ∀ request ∈ requests, request.accountId = request.command.accountId
  functional : ∀ first ∈ requests, ∀ second ∈ requests,
    first.command.eventId = second.command.eventId → first.command = second.command

/-- No request of the history is rejected with `CURRENCY_MISMATCH`. -/
def NoMismatch (storage : Storage) (requests : List Request) : Prop :=
  ∀ entry ∈ (History.after storage requests).log, entry.2 ≠ currencyMismatch

/-- Every exact running balance has at most 28 digits. -/
def Representable (requests : List Request) : Prop :=
  ∀ served, served <+: requests → ∀ accountId, Decimal.Exact (commandSum served accountId)

/-- The signed amount of a command is exact. -/
theorem delta_units (request : Request) : request.delta.units = signedUnits request.command := by
  have fits := request.command.amountAccepted.exact
  unfold Request.delta signedUnits
  cases request.command.type with
  | credit => rfl
  | debit => exact Decimal.neg_units fits

/-- A repeated command changes no sum. -/
theorem commandSum_repeated (known : request.command ∈ commandsOf requests) (accountId : String) :
    commandSum (requests ++ [request]) accountId = commandSum requests accountId := by
  have same : commandsOf (requests ++ [request]) = commandsOf requests := by
    ext command
    simp only [commandsOf, List.map_append, List.map_cons, List.map_nil, List.mem_toFinset,
      List.mem_append, List.mem_singleton] at known ⊢
    constructor
    · rintro (old | rfl)
      · exact old
      · exact known
    · exact .inl
  rw [commandSum, same]
  rfl

/-- A new command changes the sum of its own account. -/
theorem commandSum_new (fresh : request.command ∉ commandsOf requests) (accountId : String) :
    commandSum (requests ++ [request]) accountId = commandSum requests accountId +
      if request.command.accountId = accountId then signedUnits request.command else 0 := by
  have extended : commandsOf (requests ++ [request]) = insert request.command (commandsOf requests) := by
    ext command
    simp [commandsOf]
  rw [commandSum, extended, Finset.filter_insert]
  split
  · rw [Finset.sum_insert fun member => fresh (Finset.mem_filter.mp member).1, Int.add_comm]
    rfl
  · rw [Int.add_zero]
    rfl

/-- Each part of a history is addressed as the whole. -/
theorem WellAddressed.before (wellAddressed : WellAddressed (requests ++ [request])) :
    WellAddressed requests where
  addressed other member := wellAddressed.addressed other (List.mem_append_left _ member)
  functional first firstMember second secondMember :=
    wellAddressed.functional first (List.mem_append_left _ firstMember)
      second (List.mem_append_left _ secondMember)

theorem NoMismatch.before (noMismatch : NoMismatch storage (requests ++ [request])) :
    NoMismatch storage requests := by
  intro entry member
  refine noMismatch entry ?_
  rw [History.after_concat]
  exact List.mem_append_left _ member

theorem NoMismatch.last (noMismatch : NoMismatch storage (requests ++ [request])) :
    (request.apply storage (History.after storage requests).db).2 ≠ currencyMismatch := by
  refine noMismatch (request, _) ?_
  rw [History.after_concat]
  exact List.mem_append_right _ (List.mem_singleton_self _)

theorem Representable.before (representable : Representable (requests ++ [request])) :
    Representable requests :=
  fun served first => representable served (first.trans (List.prefix_append _ _))

/-- The ledger tracks the distinct commands served so far. -/
structure Tracks (storage : Storage) (requests : List Request) (db : Database) : Prop where
  stored : ∀ request ∈ requests,
    db.transactions.get request.command.eventId = some (request.transaction.stored storage)
  origin : ∀ row ∈ db.transactions.rows, ∃ request ∈ requests,
    row = request.transaction.stored storage
  opened : ∀ request ∈ requests, ∃ account,
    db.accounts.get request.accountId = some account ∧ account.currency = request.command.currency
  accounts : ∀ account ∈ db.accounts.rows, ∃ request ∈ requests,
    request.accountId = account.accountId
  balance : ∀ account ∈ db.accounts.rows,
    account.balance.units = commandSum requests account.accountId

theorem tracks_empty (storage : Storage) : Tracks storage [] Database.empty where
  stored _ member := by cases member
  origin _ member := by cases member
  opened _ member := by cases member
  accounts _ member := by cases member
  balance _ member := by cases member

/-- A fresh event id is accepted when its account is absent or has its currency. -/
theorem Request.apply_admitted (addressed : request.accountId = request.command.accountId)
    (fresh : db.transactions.get request.command.eventId = none)
    (matching : ∀ account, db.accounts.get request.command.accountId = some account →
      account.currency = request.command.currency) :
    (request.apply storage db).2.status = 201 := by
  rw [(request.apply_eq storage db).2]
  simp only [begin, addressed, ne_eq, not_true_eq_false, if_false, fresh]
  cases present : db.accounts.get request.command.accountId with
  | none => rfl
  | some account =>
      simp only [if_neg (not_not.mpr (matching account present))]
      rfl

/-- A fresh event id is accepted unless the account has another currency. -/
theorem Request.apply_fresh (addressed : request.accountId = request.command.accountId)
    (fresh : db.transactions.get request.command.eventId = none)
    (matching : (request.apply storage db).2 ≠ currencyMismatch) :
    (request.apply storage db).2.status = 201 := by
  refine Request.apply_admitted addressed fresh fun account present => ?_
  rw [(request.apply_eq storage db).2] at matching
  simp only [begin, addressed, ne_eq, not_true_eq_false, if_false, fresh, present] at matching
  by_contra different
  rw [if_pos different] at matching
  exact matching rfl

/-- A used event id is not accepted. -/
theorem Request.apply_used (used : db.transactions.get request.command.eventId ≠ none) :
    (request.apply storage db).2.status ≠ 201 := by
  rcases request.apply_cases storage db with ⟨refused, _⟩ | ⟨_, _, fresh, _⟩
  · exact refused
  · exact absurd fresh used

/-- The account that an accepted request reads is the stored one or a new one. -/
def Request.account (request : Request) (db : Database) : Account :=
  (db.accounts.get request.accountId).getD request.newAccount

/-- An accepted request sets the balance of its own account and changes no other account. -/
theorem Request.accepted_accounts (accepted : (request.apply storage db).2.status = 201)
    (accountId : String) :
    (request.account db).currency = request.command.currency ∧
    (request.apply storage db).1.accounts.get accountId =
      if request.accountId = accountId then
        some { request.account db with
          balance := storage.numeric ((request.account db).balance + request.delta) }
      else db.accounts.get accountId := by
  unfold account
  rcases request.apply_cases storage db with
    ⟨refused, _⟩ | ⟨_, _, _, created | ⟨account, present, currency, updated⟩⟩
  · exact absurd accepted refused
  · rw [created_absent created, created_accounts created]
    exact ⟨rfl, rfl⟩
  · rw [updated_accounts (Table.key_of_get present) updated, present]
    refine ⟨currency, ?_⟩
    simp only [Option.map_some, Option.getD_some]
    by_cases own : accountId = request.accountId
    · rw [if_pos own, if_pos own.symm]
    · rw [if_neg own, if_neg (Ne.symm own)]

/-- An event id without a transaction belongs to a new command. -/
theorem Tracks.fresh_command (tracks : Tracks storage requests db)
    (fresh : db.transactions.get request.command.eventId = none) :
    request.command ∉ commandsOf requests := by
  intro known
  obtain ⟨earlier, member, same⟩ := List.mem_map.mp (List.mem_toFinset.mp known)
  have stored := tracks.stored earlier member
  rw [same, fresh] at stored
  cases stored

/-- A stored event id belongs to a repeated command. -/
theorem Tracks.used_command (tracks : Tracks storage requests db)
    (wellAddressed : WellAddressed (requests ++ [request]))
    (used : db.transactions.get request.command.eventId ≠ none) :
    ∃ earlier ∈ requests, earlier.command = request.command := by
  obtain ⟨row, present⟩ := Option.ne_none_iff_exists'.mp used
  obtain ⟨earlier, member, rfl⟩ := tracks.origin row (Table.mem_of_get present)
  have sameId : (earlier.transaction.stored storage).eventId = request.command.eventId :=
    Table.key_of_get present
  exact ⟨earlier, member, wellAddressed.functional earlier (List.mem_append_left _ member) request
    (List.mem_append_right _ (List.mem_singleton_self _)) sameId⟩

/-- The account that a fresh request reads holds the signed sum of its earlier commands. -/
theorem Tracks.account_balance (tracks : Tracks storage requests db) (request : Request)
    (wellAddressed : WellAddressed requests) :
    (request.account db).balance.units = commandSum requests request.accountId := by
  unfold Request.account
  cases present : db.accounts.get request.accountId with
  | some account =>
      rw [← Table.key_of_get present]
      exact tracks.balance account (Table.mem_of_get present)
  | none =>
      have unused : ∀ command ∈ commandsOf requests, command.accountId ≠ request.accountId := by
        intro command member same
        obtain ⟨earlier, served, rfl⟩ := List.mem_map.mp (List.mem_toFinset.mp member)
        obtain ⟨account, found, _⟩ := tracks.opened earlier served
        rw [wellAddressed.addressed earlier served, same, present] at found
        cases found
      rw [commandSum, Finset.filter_eq_empty_iff.mpr unused]
      rfl

/-- The balance after an accepted request is the sum of its account with the request. -/
theorem Tracks.accepted_units (lossless : storage.Exact) (tracks : Tracks storage requests db)
    (wellAddressed : WellAddressed (requests ++ [request]))
    (fits : Decimal.Exact (commandSum (requests ++ [request]) request.accountId))
    (fresh : db.transactions.get request.command.eventId = none) :
    (storage.numeric ((request.account db).balance + request.delta)).units =
      commandSum (requests ++ [request]) request.accountId := by
  have addressed := wellAddressed.addressed request
    (List.mem_append_right _ (List.mem_singleton_self _))
  have total : (request.account db).balance.units + request.delta.units =
      commandSum (requests ++ [request]) request.accountId := by
    rw [commandSum_new (tracks.fresh_command fresh), if_pos addressed.symm,
      tracks.account_balance request wellAddressed.before, delta_units]
  rw [lossless, Decimal.add_units (total ▸ fits), total]

/-- An accepted request keeps the ledger tracked. -/
theorem Tracks.accepted (lossless : storage.Exact) (tracks : Tracks storage requests db)
    (wellAddressed : WellAddressed (requests ++ [request]))
    (fits : Decimal.Exact (commandSum (requests ++ [request]) request.accountId))
    (fresh : db.transactions.get request.command.eventId = none)
    (accepted : (request.apply storage db).2.status = 201) :
    Tracks storage (requests ++ [request]) (request.apply storage db).1 := by
  have rows := (Request.apply_accepted accepted).2
  have accounts := Request.accepted_accounts accepted
  have addressed := wellAddressed.addressed request
    (List.mem_append_right _ (List.mem_singleton_self _))
  have sums := commandSum_new (tracks.fresh_command fresh)
  have balance := tracks.accepted_units lossless wellAddressed fits fresh
  refine ⟨fun served member => ?_, fun row member => ?_, fun served member => ?_,
    fun account member => ?_, fun account member => ?_⟩
  · rcases List.mem_append.mp member with old | new
    · have present := tracks.stored served old
      exact Table.get_eq_some.mpr ⟨rows ▸ List.mem_append_left _ (Table.mem_of_get present), rfl⟩
    · obtain rfl := List.mem_singleton.mp new
      exact Table.get_eq_some.mpr
        ⟨rows ▸ List.mem_append_right _ (List.mem_singleton_self _), rfl⟩
  · rw [rows] at member
    rcases List.mem_append.mp member with old | new
    · obtain ⟨served, earlier, same⟩ := tracks.origin row old
      exact ⟨served, List.mem_append_left _ earlier, same⟩
    · exact ⟨request, List.mem_append_right _ (List.mem_singleton_self _),
        List.mem_singleton.mp new⟩
  · rw [(accounts served.accountId).2]
    by_cases own : request.accountId = served.accountId
    · rw [if_pos own]
      refine ⟨_, rfl, ?_⟩
      rcases List.mem_append.mp member with old | new
      · obtain ⟨account, present, currency⟩ := tracks.opened served old
        rw [← currency]
        simp only [Request.account, own, present, Option.getD_some]
      · obtain rfl := List.mem_singleton.mp new
        exact (accounts served.accountId).1
    · rw [if_neg own]
      rcases List.mem_append.mp member with old | new
      · exact tracks.opened served old
      · exact absurd (List.mem_singleton.mp new ▸ rfl) own
  · have present := Table.get_of_mem member
    rw [(accounts account.accountId).2] at present
    by_cases own : request.accountId = account.accountId
    · exact ⟨request, List.mem_append_right _ (List.mem_singleton_self _), own⟩
    · rw [if_neg own] at present
      obtain ⟨served, earlier, same⟩ := tracks.accounts account (Table.mem_of_get present)
      exact ⟨served, List.mem_append_left _ earlier, same⟩
  · have present := Table.get_of_mem member
    rw [(accounts account.accountId).2] at present
    by_cases own : request.accountId = account.accountId
    · rw [if_pos own] at present
      rw [← own, ← balance, ← Option.some.inj present]
    · rw [if_neg own] at present
      rw [tracks.balance account (Table.mem_of_get present), sums,
        if_neg (addressed ▸ own), Int.add_zero]

/-- A repeated command keeps the ledger tracked. -/
theorem Tracks.repeated (tracks : Tracks storage requests db)
    (wellAddressed : WellAddressed (requests ++ [request]))
    (used : db.transactions.get request.command.eventId ≠ none) :
    Tracks storage (requests ++ [request]) (request.apply storage db).1 := by
  have refused : (request.apply storage db).2.status ≠ 201 := Request.apply_used used
  obtain ⟨accounts, transactions⟩ := Request.apply_refused refused
  obtain ⟨earlier, served, same⟩ := tracks.used_command wellAddressed used
  have sameAccount : earlier.accountId = request.accountId := by
    rw [wellAddressed.before.addressed earlier served, same]
    exact (wellAddressed.addressed request
      (List.mem_append_right _ (List.mem_singleton_self _))).symm
  have sums := commandSum_repeated
    (List.mem_toFinset.mpr (List.mem_map.mpr ⟨earlier, served, same⟩))
  refine ⟨fun other member => ?_, fun row member => ?_, fun other member => ?_,
    fun account member => ?_, fun account member => ?_⟩
  · rw [transactions]
    rcases List.mem_append.mp member with old | new
    · exact tracks.stored other old
    · obtain rfl := List.mem_singleton.mp new
      have sameTransaction : other.transaction = earlier.transaction := by
        simp only [Request.transaction, same, sameAccount]
      rw [sameTransaction, ← same]
      exact tracks.stored earlier served
  · obtain ⟨other, before, same⟩ := tracks.origin row (transactions ▸ member)
    exact ⟨other, List.mem_append_left _ before, same⟩
  · rw [accounts]
    rcases List.mem_append.mp member with old | new
    · exact tracks.opened other old
    · obtain rfl := List.mem_singleton.mp new
      rw [← same, ← sameAccount]
      exact tracks.opened earlier served
  · obtain ⟨other, before, same⟩ := tracks.accounts account (accounts ▸ member)
    exact ⟨other, List.mem_append_left _ before, same⟩
  · rw [sums]
    exact tracks.balance account (accounts ▸ member)

/-- The ledger tracks the distinct commands after every history. -/
theorem tracks_after (lossless : storage.Exact) (requests : List Request)
    (wellAddressed : WellAddressed requests) (noMismatch : NoMismatch storage requests)
    (representable : Representable requests) :
    Tracks storage requests (History.after storage requests).db := by
  induction requests using List.reverseRecOn with
  | nil => exact tracks_empty storage
  | append_singleton requests request ih =>
      have tracks := ih wellAddressed.before noMismatch.before representable.before
      rw [History.after_concat]
      cases used : (History.after storage requests).db.transactions.get request.command.eventId with
      | none =>
          exact tracks.accepted lossless wellAddressed (representable _ List.prefix_rfl _) used
            (Request.apply_fresh
              (wellAddressed.addressed request
                (List.mem_append_right _ (List.mem_singleton_self _))) used noMismatch.last)
      | some row => exact tracks.repeated wellAddressed (by rw [used]; exact Option.some_ne_none row)

/-- Both runs read the same accounts and transactions, and each balance is the signed sum. -/
structure SameLedger (left right : List Request) (leftDb rightDb : Database) : Prop where
  accounts : ∀ accountId, leftDb.accounts.get accountId = rightDb.accounts.get accountId
  transactions : ∀ eventId, leftDb.transactions.get eventId = rightDb.transactions.get eventId
  leftBalance : ∀ account ∈ leftDb.accounts.rows,
    account.balance.units = commandSum left account.accountId
  rightBalance : ∀ account ∈ rightDb.accounts.rows,
    account.balance.units = commandSum right account.accountId

/-- Each request of one run has its command in the other run. -/
theorem exists_same_command {left right : List Request} (same : commandsOf left = commandsOf right)
    {first : Request} (member : first ∈ left) : ∃ second ∈ right, second.command = first.command := by
  have known : first.command ∈ commandsOf right :=
    same ▸ List.mem_toFinset.mpr (List.mem_map_of_mem member)
  exact List.mem_map.mp (List.mem_toFinset.mp known)

/-- What one run stores under an event id, the other run stores too. -/
theorem Tracks.transaction_of {left right : List Request} {leftDb rightDb : Database}
    (leftTracks : Tracks storage left leftDb) (rightTracks : Tracks storage right rightDb)
    (leftAddressed : WellAddressed left) (rightAddressed : WellAddressed right)
    (same : commandsOf left = commandsOf right) {eventId : String} {row : Transaction}
    (present : leftDb.transactions.get eventId = some row) :
    rightDb.transactions.get eventId = some row := by
  obtain ⟨first, member, rfl⟩ := leftTracks.origin row (Table.mem_of_get present)
  obtain ⟨second, other, sameCommand⟩ := exists_same_command same member
  have stored := rightTracks.stored second other
  have sameTransaction : second.transaction = first.transaction := by
    simp only [Request.transaction, sameCommand, rightAddressed.addressed second other,
      leftAddressed.addressed first member]
  have sameId : (first.transaction.stored storage).eventId = eventId := Table.key_of_get present
  rw [sameTransaction, sameCommand] at stored
  exact sameId ▸ stored

/-- What one run stores under an account id, the other run stores too. -/
theorem Tracks.account_of {left right : List Request} {leftDb rightDb : Database}
    (leftTracks : Tracks storage left leftDb) (rightTracks : Tracks storage right rightDb)
    (leftAddressed : WellAddressed left) (rightAddressed : WellAddressed right)
    (same : commandsOf left = commandsOf right) {accountId : String} {row : Account}
    (present : leftDb.accounts.get accountId = some row) :
    rightDb.accounts.get accountId = some row := by
  obtain ⟨first, member, own⟩ := leftTracks.accounts row (Table.mem_of_get present)
  obtain ⟨second, other, sameCommand⟩ := exists_same_command same member
  have rowId : row.accountId = accountId := Table.key_of_get present
  have sameAccount : second.accountId = accountId := by
    rw [rightAddressed.addressed second other, sameCommand,
      ← leftAddressed.addressed first member, own, rowId]
  obtain ⟨found, leftPresent, leftCurrency⟩ := leftTracks.opened first member
  obtain ⟨account, rightPresent, rightCurrency⟩ := rightTracks.opened second other
  rw [own, rowId, present] at leftPresent
  obtain rfl := Option.some.inj leftPresent
  rw [sameAccount] at rightPresent
  rw [rightPresent]
  have accountId : account.accountId = row.accountId := (Table.key_of_get rightPresent).trans rowId.symm
  have currency : account.currency = row.currency := by
    rw [rightCurrency, leftCurrency, sameCommand]
  have balance : account.balance = row.balance := by
    have total := rightTracks.balance account (Table.mem_of_get rightPresent)
    have sums : commandSum right account.accountId = commandSum left row.accountId := by
      rw [accountId, commandSum, commandSum, same]
    rw [sums, ← leftTracks.balance row (Table.mem_of_get present)] at total
    exact Decimal.ext total
  exact congrArg some (Account.ext accountId currency balance)

/-- Two runs over the same distinct commands end with the same ledger. -/
theorem order_independent (lossless : storage.Exact) (left right : List Request)
    (leftAddressed : WellAddressed left) (rightAddressed : WellAddressed right)
    (same : commandsOf left = commandsOf right)
    (leftMatching : NoMismatch storage left) (rightMatching : NoMismatch storage right)
    (leftFits : Representable left) (rightFits : Representable right) :
    SameLedger left right (History.after storage left).db (History.after storage right).db := by
  have leftTracks := tracks_after lossless left leftAddressed leftMatching leftFits
  have rightTracks := tracks_after lossless right rightAddressed rightMatching rightFits
  refine ⟨fun accountId => ?_, fun eventId => ?_, leftTracks.balance, rightTracks.balance⟩
  · refine Option.ext fun row => ⟨fun present => ?_, fun present => ?_⟩
    · exact leftTracks.account_of rightTracks leftAddressed rightAddressed same present
    · exact rightTracks.account_of leftTracks rightAddressed leftAddressed same.symm present
  · refine Option.ext fun row => ⟨fun present => ?_, fun present => ?_⟩
    · exact leftTracks.transaction_of rightTracks leftAddressed rightAddressed same present
    · exact rightTracks.transaction_of leftTracks rightAddressed leftAddressed same.symm present

/-- Up to a billion requests have sums of at most 28 digits. -/
theorem representable_of_length (short : requests.length ≤ 10 ^ 9) : Representable requests := by
  intro served before accountId
  have bounded (command : TransactionCreate) : |signedUnits command| ≤ 10 ^ 19 - 1 := by
    obtain ⟨positive, below⟩ := command.amountAccepted
    rw [abs_le, signedUnits]
    cases command.type <;> constructor <;> dsimp only <;> omega
  have cards : ((commandsOf served).filter fun command => command.accountId = accountId).card ≤
      10 ^ 9 :=
    calc _ ≤ (commandsOf served).card := Finset.card_filter_le _ _
      _ ≤ (served.map Request.command).length := List.toFinset_card_le _
      _ = served.length := List.length_map _
      _ ≤ 10 ^ 9 := before.length_le.trans short
  have total : |commandSum served accountId| ≤ 10 ^ 9 * (10 ^ 19 - 1) :=
    calc _ ≤ _ := Finset.abs_sum_le_sum_abs _ _
      _ ≤ _ := Finset.sum_le_card_nsmul _ _ _ fun command _ => bounded command
      _ ≤ 10 ^ 9 * (10 ^ 19 - 1) := by
        rw [nsmul_eq_mul]
        exact Int.mul_le_mul_of_nonneg_right (by exact_mod_cast cards) (by decide)
  rw [Int.abs_eq_natAbs] at total
  refine Decimal.exact_of_lt ?_
  unfold Decimal.precision
  omega

theorem order_independent_repeated :
    SameLedger [.direct creditX "trace", .direct creditY "trace"]
      [.direct creditY "trace", .direct creditX "trace", .direct creditX "trace"]
      (History.after .wallClock [.direct creditX "trace", .direct creditY "trace"]).db
      (History.after .wallClock
        [.direct creditY "trace", .direct creditX "trace", .direct creditX "trace"]).db :=
  order_independent Storage.wallClock_exact _ _ ⟨by decide, by decide⟩ ⟨by decide, by decide⟩ (by decide)
    (by unfold NoMismatch; decide) (by unfold NoMismatch; decide)
    (representable_of_length (by decide)) (representable_of_length (by decide))

/-- Two characters spell a number below `2 ^ 30`. -/
def counterId (k : Nat) : String :=
  String.ofList [Char.ofNat (4096 + k / 2 ^ 15), Char.ofNat (4096 + k % 2 ^ 15)]

theorem counterId_injective {j k : Nat} (jSmall : j < 2 ^ 30) (kSmall : k < 2 ^ 30)
    (same : counterId j = counterId k) : j = k := by
  have decoded (code : Nat) (valid : code < 0xd800) : (Char.ofNat code).toNat = code := by
    rw [Char.ofNat, dif_pos (show code.isValidChar from .inl valid)]
    rfl
  have chars := String.ofList_injective same
  simp only [List.cons.injEq, and_true] at chars
  have high := congrArg Char.toNat chars.1
  have low := congrArg Char.toNat chars.2
  rw [decoded _ (by omega), decoded _ (by omega)] at high low
  omega

/-- A credit of the largest amount has an event id of its own. -/
def largestCredit (k : Nat) : Request :=
  .direct { creditX with
    eventId := counterId k
    amount := ⟨10 ^ 19 - 1⟩
    eventIdLength := by simp [counterId, identifierLength]
    amountAccepted := by decide } "trace"

def largestCredits (n : Nat) : List Request := (List.range n).map largestCredit

theorem largestCredits_succ (n : Nat) :
    largestCredits (n + 1) = largestCredits n ++ [largestCredit n] := by
  rw [largestCredits, List.range_succ, List.map_append]
  rfl

theorem largestCredits_wellAddressed {n : Nat} (small : n < 2 ^ 30) :
    WellAddressed (largestCredits n) := by
  constructor
  · intro request member
    obtain ⟨k, _, rfl⟩ := List.mem_map.mp member
    rfl
  · intro first firstMember second secondMember same
    obtain ⟨j, jBelow, rfl⟩ := List.mem_map.mp firstMember
    obtain ⟨k, kBelow, rfl⟩ := List.mem_map.mp secondMember
    have equal := counterId_injective ((List.mem_range.mp jBelow).trans small)
      ((List.mem_range.mp kBelow).trans small) same
    rw [equal]

theorem largestCredits_sum {n : Nat} (small : n < 2 ^ 30) :
    commandSum (largestCredits n) "a" = n * (10 ^ 19 - 1) := by
  induction n with
  | zero => rfl
  | succ n ih =>
      have fresh : (largestCredit n).command ∉ commandsOf (largestCredits n) := by
        intro known
        obtain ⟨request, member, same⟩ := List.mem_map.mp (List.mem_toFinset.mp known)
        obtain ⟨k, below, rfl⟩ := List.mem_map.mp member
        have equal := counterId_injective (by have := List.mem_range.mp below; omega) (by omega)
          (congrArg TransactionCreate.eventId same)
        exact absurd (List.mem_range.mp below) (by omega)
      have own : (largestCredit n).command.accountId = "a" := rfl
      have amount : signedUnits (largestCredit n).command = 10 ^ 19 - 1 := rfl
      rw [largestCredits_succ, commandSum_new fresh, if_pos own, amount, ih (by omega)]
      push_cast
      ring

/-- The next of the largest credits is accepted. -/
theorem largestCredit_accepted {n : Nat} (small : n < 2 ^ 30)
    (tracks : Tracks .wallClock (largestCredits n) db) :
    ((largestCredit n).apply .wallClock db).2.status = 201 := by
  refine Request.apply_admitted rfl ?_ fun account present => ?_
  · rw [Table.get_eq_none]
    intro row member same
    obtain ⟨request, served, rfl⟩ := tracks.origin row member
    obtain ⟨k, below, rfl⟩ := List.mem_map.mp served
    have equal := counterId_injective ((List.mem_range.mp below).trans small) small same
    exact absurd (List.mem_range.mp below) (by omega)
  · obtain ⟨request, served, own⟩ := tracks.accounts account (Table.mem_of_get present)
    obtain ⟨found, opened, currency⟩ := tracks.opened request served
    rw [own, Table.get_of_mem (Table.mem_of_get present)] at opened
    obtain rfl := Option.some.inj opened
    obtain ⟨k, _, rfl⟩ := List.mem_map.mp served
    exact currency

theorem largestCredits_tracked {n : Nat} (small : n ≤ 10 ^ 9)
    (matching : NoMismatch .wallClock (largestCredits n)) :
    Tracks .wallClock (largestCredits n) (History.after .wallClock (largestCredits n)).db :=
  tracks_after Storage.wallClock_exact _ (largestCredits_wellAddressed (by omega)) matching
    (representable_of_length (by simpa [largestCredits] using small))

theorem largestCredits_noMismatch {n : Nat} (small : n ≤ 10 ^ 9 + 1) :
    NoMismatch .wallClock (largestCredits n) := by
  induction n with
  | zero =>
      intro entry member
      cases member
  | succ n ih =>
      have matching := ih (by omega)
      have accepted := largestCredit_accepted (by omega)
        (largestCredits_tracked (by omega) matching)
      intro entry member
      rw [largestCredits_succ, History.after_concat] at member
      rcases List.mem_append.mp member with old | new
      · exact matching entry old
      · rw [List.mem_singleton.mp new]
        intro mismatch
        rw [mismatch] at accepted
        cases accepted

/-- The balance after one more largest credit is rounded by the decimal context. -/
theorem largestCredits_rounded {n : Nat} (billion : n = 10 ^ 9) :
    ∃ account ∈ (History.after .wallClock (largestCredits (n + 1))).db.accounts.rows,
      account.accountId = "a" ∧ account.balance.units = 10 ^ 28 + 10 ^ 19 - 10 ^ 9 := by
  have tracks := largestCredits_tracked (show n ≤ 10 ^ 9 by omega)
    (largestCredits_noMismatch (by omega))
  have accepted := largestCredit_accepted (by omega) tracks
  have before : ((largestCredit n).account
      (History.after .wallClock (largestCredits n)).db).balance = ⟨10 ^ 9 * (10 ^ 19 - 1)⟩ := by
    refine Decimal.ext ?_
    rw [tracks.account_balance _ (largestCredits_wellAddressed (by omega))]
    exact (largestCredits_sum (by omega)).trans (by rw [billion]; rfl)
  have own : (largestCredit n).accountId = "a" := rfl
  have after := (Request.accepted_accounts accepted "a").2
  rw [if_pos own] at after
  rw [largestCredits_succ, History.after_concat]
  refine ⟨_, Table.mem_of_get after, Table.key_of_get after, ?_⟩
  have rounded : (⟨10 ^ 9 * (10 ^ 19 - 1)⟩ + ⟨10 ^ 19 - 1⟩ : Decimal).units =
      10 ^ 28 + 10 ^ 19 - 10 ^ 9 := by decide +kernel
  simp only [before]
  exact rounded

/-- The sum of a billion and one largest credits does not fit the decimal context. -/
theorem largestCredits_not_sameLedger :
    ¬ ∀ left right : List Request, WellAddressed left → WellAddressed right →
      commandsOf left = commandsOf right → NoMismatch .wallClock left → NoMismatch .wallClock right →
      SameLedger left right (History.after .wallClock left).db (History.after .wallClock right).db := by
  intro independent
  obtain ⟨n, billion⟩ : ∃ n, n = 10 ^ 9 := ⟨_, rfl⟩
  have addressed := largestCredits_wellAddressed (show n + 1 < 2 ^ 30 by omega)
  have matching := largestCredits_noMismatch (show n + 1 ≤ 10 ^ 9 + 1 by omega)
  have ledger := independent _ _ addressed addressed rfl matching matching
  obtain ⟨account, stored, own, rounded⟩ := largestCredits_rounded billion
  have total := ledger.leftBalance account stored
  rw [own, rounded, largestCredits_sum (by omega)] at total
  omega

end EventLedger.AccountService
