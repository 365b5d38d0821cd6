import EventLedger.AccountService.OrderIndependence

namespace EventLedger.AccountService
open Library Python

variable {storage : Storage} {requests before : List Request} {request : Request} {db : Database}

/-- The service applies a new event id in the currency of the earlier transactions of its account. -/
def Admitted (earlier : List Request) (request : Request) : Prop :=
  request.accountId = request.command.accountId ∧
    ∀ other ∈ earlier, other.command.eventId ≠ request.command.eventId ∧
      (other.accountId = request.accountId → other.command.currency = request.command.currency)

instance (earlier : List Request) (request : Request) : Decidable (Admitted earlier request) :=
  inferInstanceAs (Decidable (_ ∧ _))

/-- The applied requests are the admitted ones, in order. -/
def applied (requests : List Request) : List Request :=
  requests.foldl (fun earlier request =>
    if Admitted earlier request then earlier ++ [request] else earlier) []

/-- The exact signed sum of the amounts that are applied to one account. -/
def appliedSum (requests : List Request) (accountId : String) : Int :=
  (((applied requests).filter fun request => decide (request.accountId = accountId)).map
    fun request => signedUnits request.command).sum

/-- The database reads back each applied amount and the exact signed sum of its account. -/
structure ReadsBack (storage : Storage) (requests : List Request) : Prop where
  amounts : ∀ request ∈ applied requests, ∃ row,
    (History.after storage requests).db.transactions.get request.command.eventId = some row ∧
      row.amount = request.command.amount
  balances : ∀ request ∈ applied requests, ∃ account,
    (History.after storage requests).db.accounts.get request.accountId = some account ∧
      account.balance.units = appliedSum requests request.accountId

/-- The balance that is read after a request is the decimal that the request wrote. -/
def BalanceWritten (storage : Storage) (before : List Request) (request : Request) : Prop :=
  ∃ account,
    (History.after storage (before ++ [request])).db.accounts.get request.accountId = some account ∧
      account.balance =
        (request.account (History.after storage before).db).balance + request.delta

/-- Every amount and every balance stays exact after each request of the history. -/
structure ExactMoney (storage : Storage) (requests : List Request) : Prop where
  readsBack : ∀ served, served <+: requests → ReadsBack storage served
  written : ∀ before request, before ++ [request] <+: requests → Admitted (applied before) request →
    BalanceWritten storage before request

/-- The column and the decimal context keep an amount and the signed sum that it leads to. -/
def Kept (storage : Storage) (before : List Request) (request : Request) : Prop :=
  storage.numeric request.command.amount = request.command.amount ∧
    Decimal.fix (appliedSum (before ++ [request]) request.accountId) =
      ⟨appliedSum (before ++ [request]) request.accountId⟩ ∧
    storage.numeric ⟨appliedSum (before ++ [request]) request.accountId⟩ =
      ⟨appliedSum (before ++ [request]) request.accountId⟩

section Applied

theorem applied_concat (before : List Request) (request : Request) :
    applied (before ++ [request]) =
      applied before ++ if Admitted (applied before) request then [request] else [] := by
  have step : applied (before ++ [request]) = if Admitted (applied before) request then
      applied before ++ [request] else applied before := by
    rw [applied, List.foldl_append]
    rfl
  rw [step]
  by_cases admitted : Admitted (applied before) request
  · rw [if_pos admitted, if_pos admitted]
  · rw [if_neg admitted, if_neg admitted, List.append_nil]

/-- An admitted request adds its signed amount to the sum of its own account. -/
theorem appliedSum_admitted (admitted : Admitted (applied before) request) (accountId : String) :
    appliedSum (before ++ [request]) accountId = appliedSum before accountId +
      if request.accountId = accountId then signedUnits request.command else 0 := by
  simp only [appliedSum, applied_concat, if_pos admitted, List.filter_append, List.filter_cons,
    List.filter_nil, decide_eq_true_eq, List.map_append, List.sum_append]
  split <;> simp

/-- A refused request changes no sum. -/
theorem appliedSum_refused (refused : ¬ Admitted (applied before) request) (accountId : String) :
    appliedSum (before ++ [request]) accountId = appliedSum before accountId := by
  simp only [appliedSum, applied_concat, if_neg refused, List.append_nil]

end Applied

/-- Every stored account has a transaction. -/
def Database.Opened (db : Database) : Prop :=
  ∀ account ∈ db.accounts.rows, ∃ row ∈ db.transactions.rows, row.accountId = account.accountId

theorem Database.Opened.apply (opened : db.Opened) (request : Request) :
    (request.apply storage db).1.Opened := by
  intro account member
  by_cases accepted : (request.apply storage db).2.status = 201
  · have rows := (Request.apply_accepted accepted).2
    have present := Table.get_of_mem member
    rw [(Request.accepted_accounts accepted account.accountId).2] at present
    rw [rows]
    by_cases own : request.accountId = account.accountId
    · exact ⟨_, List.mem_append_right _ (List.mem_singleton_self _), own⟩
    · rw [if_neg own] at present
      obtain ⟨row, stored, same⟩ := opened account (Table.mem_of_get present)
      exact ⟨row, List.mem_append_left _ stored, same⟩
  · obtain ⟨accounts, transactions⟩ := Request.apply_refused accepted
    rw [transactions]
    exact opened account (accounts ▸ member)

theorem History.opened (storage : Storage) (requests : List Request) :
    (History.after storage requests).db.Opened :=
  History.invariant (fun history => history.db.Opened) (fun _ member => by cases member)
    (fun _ request opened => opened.apply request) requests

section Rows
variable {history : History} (owned : history.db.Owned) (opened : history.db.Opened)
  (rows : history.db.transactions.rows =
    history.accepted.map fun request => request.transaction.stored storage)
include owned rows

/-- An earlier request of the account fixes its currency. -/
theorem account_of_accepted {earlier : Request} (member : earlier ∈ history.accepted) :
    ∃ account, history.db.accounts.get earlier.accountId = some account ∧
      account.currency = earlier.command.currency := by
  have stored : earlier.transaction.stored storage ∈ history.db.transactions.rows :=
    rows ▸ List.mem_map_of_mem member
  exact owned _ stored

include opened

/-- A request is answered 201 exactly when the accepted requests admit it. -/
theorem accepted_iff_admitted (request : Request) :
    (request.apply storage history.db).2.status = 201 ↔ Admitted history.accepted request := by
  constructor
  · intro accepted
    refine ⟨(Request.apply_accepted accepted).1, fun earlier member => ⟨?_, ?_⟩⟩
    · intro same
      have stored : earlier.transaction.stored storage ∈ history.db.transactions.rows :=
        rows ▸ List.mem_map_of_mem member
      have used : history.db.transactions.get request.command.eventId ≠ none :=
        fun absent => Table.get_eq_none.mp absent _ stored same
      exact Request.apply_used used accepted
    · intro own
      obtain ⟨account, present, currency⟩ := account_of_accepted owned rows member
      have same := (Request.accepted_accounts accepted request.accountId).1
      rw [own] at present
      rw [Request.account, present, Option.getD_some] at same
      exact currency.symm.trans same
  · rintro ⟨addressed, distinct⟩
    refine Request.apply_admitted addressed ?_ fun account present => ?_
    · rw [Table.get_eq_none]
      intro row member same
      rw [rows] at member
      obtain ⟨earlier, accepted, rfl⟩ := List.mem_map.mp member
      exact (distinct earlier accepted).1 same
    · obtain ⟨row, member, own⟩ := opened account (Table.mem_of_get present)
      rw [rows] at member
      obtain ⟨earlier, accepted, rfl⟩ := List.mem_map.mp member
      have sameAccount : earlier.accountId = request.accountId := by
        rw [addressed]
        exact own.trans (Table.key_of_get present)
      obtain ⟨found, located, currency⟩ := account_of_accepted owned rows accepted
      rw [sameAccount, addressed, present] at located
      obtain rfl := Option.some.inj located
      exact currency.trans ((distinct earlier accepted).2 sameAccount)

end Rows

/-- The accepted requests are selected from the inputs alone, for every storage. -/
theorem accepted_eq_applied (storage : Storage) (requests : List Request) :
    (History.after storage requests).accepted = applied requests := by
  induction requests using List.reverseRecOn with
  | nil => rfl
  | append_singleton before request ih =>
      have admitted := accepted_iff_admitted (History.owned storage before)
        (History.opened storage before) (History.rows_eq_accepted storage before) request
      rw [History.after_concat, History.accepted_serve, applied_concat, ih]
      rw [ih] at admitted
      simp only [admitted]

/-- The applied requests are the ones answered 201. -/
theorem apply_iff_admitted (storage : Storage) (before : List Request) (request : Request) :
    (request.apply storage (History.after storage before).db).2.status = 201 ↔
      Admitted (applied before) request := by
  rw [← accepted_eq_applied storage before]
  exact accepted_iff_admitted (History.owned storage before) (History.opened storage before)
    (History.rows_eq_accepted storage before) request

/-- The table holds exactly the applied requests. -/
theorem transactions_applied (storage : Storage) (requests : List Request) :
    (History.after storage requests).db.transactions.rows =
      (applied requests).map fun request => request.transaction.stored storage := by
  rw [History.rows_eq_accepted, accepted_eq_applied]

/-- The row of an applied request holds the amount that the column returns. -/
theorem applied_row (member : request ∈ applied requests) :
    (History.after storage requests).db.transactions.get request.command.eventId =
      some (request.transaction.stored storage) := by
  have stored : request.transaction.stored storage ∈
      (History.after storage requests).db.transactions.rows := by
    rw [transactions_applied]
    exact List.mem_map_of_mem member
  exact Table.get_of_mem stored

section Step
variable (reads : ReadsBack storage before)
include reads

/-- A request reads the exact signed sum of its account. -/
theorem ReadsBack.account_balance (request : Request) :
    (request.account (History.after storage before).db).balance.units =
      appliedSum before request.accountId := by
  unfold Request.account
  cases present : (History.after storage before).db.accounts.get request.accountId with
  | some account =>
      obtain ⟨row, member, own⟩ :=
        History.opened storage before account (Table.mem_of_get present)
      rw [transactions_applied] at member
      obtain ⟨earlier, served, rfl⟩ := List.mem_map.mp member
      have same : earlier.accountId = request.accountId := own.trans (Table.key_of_get present)
      obtain ⟨found, located, balance⟩ := reads.balances earlier served
      rw [same, present] at located
      obtain rfl := Option.some.inj located
      rw [← same]
      exact balance
  | none =>
      have unused : (applied before).filter
          (fun earlier => decide (earlier.accountId = request.accountId)) = [] := by
        refine List.filter_eq_nil_iff.mpr fun earlier member own => ?_
        rw [← accepted_eq_applied storage before] at member
        obtain ⟨account, found, _⟩ := account_of_accepted (History.owned storage before)
          (History.rows_eq_accepted storage before) member
        rw [of_decide_eq_true own, present] at found
        cases found
      rw [appliedSum, unused]
      rfl

variable (admitted : Admitted (applied before) request)
include admitted

/-- The service writes the signed sum as the decimal context represents it. -/
theorem ReadsBack.written_balance :
    (request.account (History.after storage before).db).balance + request.delta =
      Decimal.fix (appliedSum (before ++ [request]) request.accountId) := by
  rw [appliedSum_admitted admitted, if_pos rfl, ← reads.account_balance, ← delta_units]
  rfl

/-- An admitted request replaces the balance of its own account. -/
theorem ReadsBack.accounts_after (accountId : String) :
    (History.after storage (before ++ [request])).db.accounts.get accountId =
      if request.accountId = accountId then
        some { request.account (History.after storage before).db with
          balance := storage.numeric
            (Decimal.fix (appliedSum (before ++ [request]) request.accountId)) }
      else (History.after storage before).db.accounts.get accountId := by
  have accepted := (apply_iff_admitted storage before request).mpr admitted
  rw [History.after_concat, ← reads.written_balance admitted]
  exact (Request.accepted_accounts accepted accountId).2

/-- A request that is kept reads back exactly. -/
theorem ReadsBack.applies (kept : Kept storage before request) :
    ReadsBack storage (before ++ [request]) := by
  obtain ⟨amount, context, column⟩ := kept
  have after := reads.accounts_after admitted
  constructor
  · intro other member
    refine ⟨_, applied_row member, ?_⟩
    rw [applied_concat, if_pos admitted, List.mem_append, List.mem_singleton] at member
    rcases member with old | rfl
    · obtain ⟨row, present, same⟩ := reads.amounts other old
      rw [applied_row old] at present
      rw [Option.some.inj present]
      exact same
    · exact amount
  · intro other member
    rw [after]
    by_cases own : request.accountId = other.accountId
    · rw [if_pos own, ← own]
      refine ⟨_, rfl, ?_⟩
      simp only [context, column]
    · rw [applied_concat, if_pos admitted, List.mem_append, List.mem_singleton] at member
      rcases member with old | rfl
      · rw [if_neg own, appliedSum_admitted admitted, if_neg own, Int.add_zero]
        exact reads.balances other old
      · exact absurd rfl own

/-- An exact step shows that the request is kept. -/
theorem ReadsBack.kept (next : ReadsBack storage (before ++ [request]))
    (written : BalanceWritten storage before request) : Kept storage before request := by
  have member : request ∈ applied (before ++ [request]) := by
    rw [applied_concat, if_pos admitted]
    exact List.mem_append_right _ (List.mem_singleton_self _)
  obtain ⟨row, present, amount⟩ := next.amounts request member
  rw [applied_row member] at present
  obtain rfl := Option.some.inj present
  obtain ⟨account, found, balance⟩ := next.balances request member
  obtain ⟨read, located, same⟩ := written
  rw [found] at located
  obtain rfl := Option.some.inj located
  rw [reads.written_balance admitted] at same
  rw [reads.accounts_after admitted, if_pos rfl] at found
  have column := congrArg Account.balance (Option.some.inj found)
  have sum : account.balance = ⟨appliedSum (before ++ [request]) request.accountId⟩ :=
    Decimal.ext balance
  have context := same.symm.trans sum
  refine ⟨amount, context, ?_⟩
  rw [context] at column
  exact column.trans sum

end Step

/-- A refused request leaves the reads as they are. -/
theorem ReadsBack.refused (reads : ReadsBack storage before)
    (refused : ¬ Admitted (applied before) request) : ReadsBack storage (before ++ [request]) := by
  have unaccepted := mt (apply_iff_admitted storage before request).mp refused
  obtain ⟨accounts, transactions⟩ := Request.apply_refused unaccepted
  have same : applied (before ++ [request]) = applied before := by
    rw [applied_concat, if_neg refused, List.append_nil]
  constructor
  · intro other member
    rw [same] at member
    rw [History.after_concat, History.serve, transactions]
    exact reads.amounts other member
  · intro other member
    rw [same] at member
    rw [History.after_concat, History.serve, accounts, appliedSum_refused refused]
    exact reads.balances other member

/-- Every step that is kept leads to exact reads after the whole history. -/
theorem readsBack_of_kept (requests : List Request)
    (kept : ∀ before request, before ++ [request] <+: requests →
      Admitted (applied before) request → Kept storage before request) :
    ReadsBack storage requests := by
  induction requests using List.reverseRecOn with
  | nil =>
      constructor <;>
      · intro request member
        cases member
  | append_singleton served request ih =>
      have reads := ih fun before other first =>
        kept before other (first.trans (List.prefix_append _ _))
      by_cases admitted : Admitted (applied served) request
      · exact reads.applies admitted (kept served request (List.prefix_refl _) admitted)
      · exact reads.refused admitted

/-- Money stays exact exactly when the column and the context keep every applied step. -/
theorem exactMoney_iff_kept (storage : Storage) (requests : List Request) :
    ExactMoney storage requests ↔
      ∀ before request, before ++ [request] <+: requests → Admitted (applied before) request →
        Kept storage before request := by
  constructor
  · intro exactly before request first admitted
    have earlier := exactly.readsBack before ((List.prefix_append _ _).trans first)
    exact earlier.kept admitted (exactly.readsBack _ first) (exactly.written before request first admitted)
  · intro kept
    have reads (served : List Request) (first : served <+: requests) : ReadsBack storage served :=
      readsBack_of_kept served fun before request part => kept before request (part.trans first)
    refine ⟨reads, fun before request first admitted => ?_⟩
    have earlier := reads before ((List.prefix_append _ _).trans first)
    obtain ⟨_, context, column⟩ := kept before request first admitted
    refine ⟨_, by rw [earlier.accounts_after admitted, if_pos rfl], ?_⟩
    simp only [earlier.written_balance admitted, context, column]

/-- SQLite keeps money exact exactly when every applied amount and every signed sum survives. -/
theorem money_exact_iff (requests : List Request) :
    ExactMoney .binary64 requests ↔
      ∀ before request, before ++ [request] <+: requests → Admitted (applied before) request →
        Survives request.command.amount ∧
          Decimal.fix (appliedSum (before ++ [request]) request.accountId) =
            ⟨appliedSum (before ++ [request]) request.accountId⟩ ∧
          Survives ⟨appliedSum (before ++ [request]) request.accountId⟩ := by
  simp only [exactMoney_iff_kept, Kept, binary64_eq_iff]

/-- Money stays exact while every signed sum stays below `2 ^ 39` in magnitude. -/
theorem exactMoney_of_small (requests : List Request)
    (amounts : ∀ request ∈ requests, request.command.amount.units.natAbs < 2 ^ 39 * 10 ^ 4)
    (sums : ∀ served, served <+: requests → ∀ accountId,
      (appliedSum served accountId).natAbs < 2 ^ 39 * 10 ^ 4) : ExactMoney .binary64 requests := by
  refine (exactMoney_iff_kept _ _).mpr fun before request first _ => ?_
  have amount := amounts request (first.subset (List.mem_append_right _ (List.mem_singleton_self _)))
  have sum := sums _ first request.accountId
  refine ⟨(binary64_eq_iff _).mpr (survives_of_small amount), ?_,
    (binary64_eq_iff _).mpr (survives_of_small sum)⟩
  refine Decimal.exact_of_lt ?_
  unfold Decimal.precision
  omega

/-- A single credit of $549755813888.0003 is read back one ten-thousandth short. -/
theorem money_rounded :
    ¬ ExactMoney .binary64 [.direct (.creditOf "x" 5497558138880003 .epoch) "trace"] := by
  intro exactly
  have kept := (exactMoney_iff_kept _ _).mp exactly [] _ (List.prefix_refl _) (by decide)
  have amount := congrArg Decimal.units kept.1
  simp only [Request.direct, TransactionCreate.creditOf, binary64_rounds] at amount
  omega

end EventLedger.AccountService
