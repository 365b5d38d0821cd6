import EventLedger.AccountService.OrderIndependence
import EventLedger.Library.Lists

namespace EventLedger.AccountService
open Library Python

variable {storage : Storage} {db next : Database} {request : Request}

/-- The records of one action are read in insertion order. -/
def Database.records (db : Database) (action : AuditAction) : List AuditRecord :=
  db.audit.filter fun record => decide (record.action = action)

/-- A balance record carries a balance change. -/
def AuditRecord.change (record : AuditRecord) : Option BalanceChange :=
  match record.details with
  | some (.balance change) => some change
  | _ => none

/-- The balance changes of one account are read in insertion order. -/
def Database.changes (db : Database) (accountId : String) : List BalanceChange :=
  ((db.records .balanceUpdated).filter fun record => decide (record.accountId = accountId)).filterMap
    AuditRecord.change

/-- The new balance is the sum that the decimal context computes. -/
def BalanceChange.Adds (change : BalanceChange) : Prop :=
  change.newBalance = change.previousBalance + change.delta

/-- The new balance is the exact sum. -/
def BalanceChange.Sums (change : BalanceChange) : Prop :=
  change.newBalance.units = change.previousBalance.units + change.delta.units

/-- A chain of changes leads from one balance to another. -/
def Continues (holds : BalanceChange → Prop) : Decimal → List BalanceChange → Decimal → Prop
  | start, [], final => final = start
  | start, change :: rest, final =>
      change.previousBalance = start ∧ holds change ∧ Continues holds change.newBalance rest final

/-- The exact sum of the deltas of some changes. -/
def deltaSum (changes : List BalanceChange) : Int :=
  (changes.map fun change => change.delta.units).sum

section Chains
variable {holds : BalanceChange → Prop} {start final : Decimal} {changes : List BalanceChange}

/-- A chain extends by one change that starts at its end. -/
theorem Continues.concat (change : BalanceChange)
    (chain : Continues holds start changes change.previousBalance) (sum : holds change) :
    Continues holds start (changes ++ [change]) change.newBalance := by
  induction changes generalizing start with
  | nil => exact ⟨chain, sum, rfl⟩
  | cons head rest ih => exact ⟨chain.1, chain.2.1, ih chain.2.2⟩

/-- The sums of a chain are exact as long as the decimal context represents each of them. -/
theorem Continues.exact (chain : Continues BalanceChange.Adds start changes final)
    (fits : ∀ first, first <+: changes → Decimal.Exact (start.units + deltaSum first)) :
    Continues BalanceChange.Sums start changes final := by
  induction changes generalizing start with
  | nil => exact chain
  | cons change rest ih =>
      obtain ⟨rfl, adds, later⟩ := chain
      have single : deltaSum [change] = change.delta.units := by simp [deltaSum]
      have sums : change.Sums := by
        have fit := fits [change] (List.prefix_append [change] rest)
        rw [single] at fit
        rw [BalanceChange.Sums, adds, Decimal.add_units fit]
      refine ⟨rfl, sums, ih later fun first shorter => ?_⟩
      have fit := fits (change :: first) (List.cons_prefix_cons.mpr ⟨rfl, shorter⟩)
      rw [deltaSum, List.map_cons, List.sum_cons, ← add_assoc] at fit
      rwa [sums]

/-- A chain of exact sums ends at its start and the sum of its deltas. -/
theorem Continues.total (chain : Continues BalanceChange.Sums start changes final) :
    final.units = start.units + deltaSum changes := by
  induction changes generalizing start with
  | nil =>
      rw [show final = start from chain]
      exact (Int.add_zero _).symm
  | cons change rest ih =>
      obtain ⟨rfl, sums, later⟩ := chain
      rw [ih later, sums, deltaSum, deltaSum, List.map_cons, List.sum_cons, add_assoc]

end Chains

/-- An absent account has balance zero. -/
def Database.balanceOf (db : Database) (accountId : String) : Decimal :=
  (db.accounts.get accountId).elim 0 Account.balance

/-- The audit log follows the ledger tables row by row. -/
structure Database.Audited (db : Database) : Prop where
  created : (db.records .accountCreated).map AuditRecord.accountId =
    db.accounts.rows.map Account.accountId
  applied : (db.records .transactionApplied).map AuditRecord.eventId =
    db.transactions.rows.map Transaction.eventId
  updated : (db.records .balanceUpdated).map (fun record =>
      (record.eventId, record.accountId, record.change.map BalanceChange.delta)) =
    db.transactions.rows.map fun row => (row.eventId, row.accountId, some row.delta)
  chain : ∀ accountId,
    Continues BalanceChange.Adds 0 (db.changes accountId) (db.balanceOf accountId)

theorem Database.audited_empty : Database.empty.Audited :=
  ⟨rfl, rfl, rfl, fun _ => rfl⟩

theorem Database.records_append {records : List AuditRecord}
    (audit : next.audit = db.audit ++ records) (action : AuditAction) :
    next.records action = db.records action ++
      records.filter fun record => decide (record.action = action) := by
  rw [Database.records, audit, List.filter_append]
  rfl

/-- Refusals belong to none of the ledger actions. -/
theorem refusals_filter {records : List AuditRecord}
    (refusals : ∀ record ∈ records, record.action.refusal) {action : AuditAction}
    (ledger : action.refusal = false) :
    records.filter (fun record => decide (record.action = action)) = [] := by
  refine List.filter_eq_nil_iff.mpr fun record member same => ?_
  have refusal := refusals record member
  rw [of_decide_eq_true same, ledger] at refusal
  cases refusal

/-- Silent work keeps the audit log in step with the ledger. -/
theorem Database.Audited.silent {work : Work} (silent : work.Silent)
    (committed : db.commit storage work = some next) (audited : db.Audited) : next.Audited := by
  obtain ⟨accounts, transactions, audit⟩ := silent_tables silent committed
  have same (action : AuditAction) (ledger : action.refusal = false) :
      next.records action = db.records action := by
    rw [Database.records_append audit, refusals_filter silent.records ledger, List.append_nil]
  refine ⟨?_, ?_, ?_, fun accountId => ?_⟩
  · rw [same _ rfl, accounts]
    exact audited.created
  · rw [same _ rfl, transactions]
    exact audited.applied
  · rw [same _ rfl, transactions]
    exact audited.updated
  · rw [Database.changes, same _ rfl, Database.balanceOf, accounts]
    exact audited.chain accountId

/-- The balance change of an accepted request starts at the balance that it read. -/
def Request.change (request : Request) (account : Account) : BalanceChange :=
  ⟨account.balance, request.delta, account.balance + request.delta⟩

/-- An accepted request appends one change to its own account only. -/
theorem Database.changes_write {account : Account} {created : Bool}
    (audit : next.audit = db.audit ++ (request.write storage account created).records)
    (accountId : String) :
    next.changes accountId = db.changes accountId ++
      if request.accountId = accountId then [request.change account] else [] := by
  have update : ((request.write storage account created).records.filter fun record =>
      decide (record.action = .balanceUpdated)) =
        [request.record .balanceUpdated .success (some (.balance (request.change account)))] := by
    cases created <;> rfl
  rw [Database.changes, Database.records_append audit, update, List.filter_append,
    List.filterMap_append]
  by_cases own : request.accountId = accountId <;>
    simp [Database.changes, Request.record, AuditRecord.change, own]

/-- An accepted request keeps the audit log in step with the transactions. -/
theorem write_records {account : Account} {created : Bool}
    (audit : next.audit = db.audit ++ (request.write storage account created).records)
    (rows : next.transactions.rows = db.transactions.rows ++ [request.transaction.stored storage])
    (lossless : storage.Exact) (audited : db.Audited) :
    (next.records .transactionApplied).map AuditRecord.eventId =
        next.transactions.rows.map Transaction.eventId ∧
      (next.records .balanceUpdated).map (fun record =>
          (record.eventId, record.accountId, record.change.map BalanceChange.delta)) =
        next.transactions.rows.map fun row => (row.eventId, row.accountId, some row.delta) := by
  rw [Database.records_append audit, Database.records_append audit, rows, List.map_append,
    List.map_append, List.map_append, List.map_append, audited.applied, audited.updated]
  have delta := stored_delta lossless request
  have eventId : (request.transaction.stored storage).eventId = request.command.eventId := rfl
  have accountId : (request.transaction.stored storage).accountId = request.accountId := rfl
  cases created <;>
    simp [Request.write, Request.record, AuditRecord.change, delta, eventId, accountId]

/-- A first transaction keeps the audit log in step with the ledger. -/
theorem Database.Audited.first (lossless : storage.Exact)
    (committed : db.commit storage (request.write storage request.newAccount true) = some next)
    (audited : db.Audited) : next.Audited := by
  have accounts := created_accounts committed
  have absent := created_absent committed
  have rows := created_transactions committed
  obtain ⟨table, transactions, inserted, _, rfl⟩ := Database.commit_created committed
  obtain ⟨applied, updated⟩ := write_records rfl rows lossless audited
  refine ⟨?_, applied, updated, fun accountId => ?_⟩
  · rw [Database.records_append rfl, List.map_append, audited.created, Table.rows_insert inserted,
      List.map_append]
    rfl
  · rw [Database.changes_write rfl, Database.balanceOf, accounts]
    by_cases own : request.accountId = accountId
    · subst own
      rw [if_pos rfl, if_pos rfl]
      have chain := audited.chain request.accountId
      rw [Database.balanceOf, absent] at chain
      have extended := Continues.concat (request.change request.newAccount) chain rfl
      simpa [Account.stored, lossless _, Request.change, Request.newAccount] using extended
    · rw [if_neg own, if_neg own, List.append_nil]
      exact audited.chain accountId

/-- A later transaction keeps the audit log in step with the ledger. -/
theorem Database.Audited.later (lossless : storage.Exact) {account : Account}
    (present : db.accounts.get request.accountId = some account)
    (committed : db.commit storage (request.write storage account false) = some next)
    (audited : db.Audited) : next.Audited := by
  have accounts := updated_accounts (Table.key_of_get present) committed
  have rows := updated_transactions committed
  obtain ⟨transactions, _, rfl⟩ := Database.commit_updated committed
  obtain ⟨applied, updated⟩ := write_records rfl rows lossless audited
  refine ⟨?_, applied, updated, fun accountId => ?_⟩
  · rw [Database.records_append rfl, List.map_append, audited.created, Table.rows_modify,
      List.map_map]
    have keys : (db.accounts.rows.map (Account.accountId ∘ fun row =>
        if row.accountId = account.accountId then
          { row with balance := storage.numeric (account.balance + request.delta) }
        else row)) = db.accounts.rows.map Account.accountId :=
      List.map_congr_left fun row _ => by
        by_cases own : row.accountId = account.accountId <;> simp [own]
    rw [keys]
    simp [Request.write, Request.record]
  · rw [Database.changes_write rfl, Database.balanceOf, accounts]
    by_cases own : request.accountId = accountId
    · subst own
      rw [if_pos rfl, if_pos rfl, present]
      have chain := audited.chain request.accountId
      rw [Database.balanceOf, present] at chain
      have extended := Continues.concat (request.change account) chain rfl
      simpa [lossless _, Request.change] using extended
    · rw [if_neg own, if_neg (Ne.symm own), List.append_nil]
      exact audited.chain accountId

/-- Every request keeps the audit log in step with the ledger. -/
theorem Database.Audited.apply (lossless : storage.Exact) (audited : db.Audited)
    (request : Request) : (request.apply storage db).1.Audited := by
  rcases request.apply_cases storage db with
    ⟨_, work, silent, committed⟩ | ⟨_, _, _, created | ⟨account, present, _, updated⟩⟩
  · exact audited.silent silent committed
  · exact audited.first lossless created
  · exact audited.later lossless present updated

theorem History.audited (lossless : storage.Exact) (requests : List Request) :
    (History.after storage requests).db.Audited :=
  History.invariant (fun history => history.db.Audited) Database.audited_empty
    (fun _ request audited => audited.apply lossless request) requests

/-- Each transaction has its account and exactly one balance record and one application record. -/
def Database.TransactionsAudited (db : Database) : Prop :=
  ∀ transaction ∈ db.transactions.rows,
    (∃ account, db.accounts.get transaction.accountId = some account ∧
      account.currency = transaction.currency) ∧
    (∃ record change, (db.records .balanceUpdated).filter
        (fun other => decide (other.eventId = transaction.eventId)) = [record] ∧
      record.accountId = transaction.accountId ∧
      record.change = some change ∧ change.delta = transaction.delta) ∧
    ∃ record, (db.records .transactionApplied).filter
      (fun other => decide (other.eventId = transaction.eventId)) = [record]

/-- An account has exactly one creation record and a chain of balance changes from zero. -/
structure Database.AccountAudited (db : Database) (holds : BalanceChange → Prop)
    (account : Account) : Prop where
  created : ∃ record, (db.records .accountCreated).filter
    (fun other => decide (other.accountId = account.accountId)) = [record]
  chain : Continues holds 0 (db.changes account.accountId) account.balance

/-- The balance record of a transaction carries its account and its signed amount. -/
theorem Database.Audited.update_record (audited : db.Audited) {transaction : Transaction}
    (member : transaction ∈ db.transactions.rows) :
    ∃ record change, (db.records .balanceUpdated).filter
        (fun other => decide (other.eventId = transaction.eventId)) = [record] ∧
      record.accountId = transaction.accountId ∧
      record.change = some change ∧ change.delta = transaction.delta := by
  have eventIds : (db.records .balanceUpdated).map AuditRecord.eventId =
      db.transactions.rows.map Transaction.eventId := by
    have projected := congrArg (List.map Prod.fst) audited.updated
    simpa only [List.map_map, Function.comp_def] using projected
  obtain ⟨record, single, sameId⟩ :=
    exists_filter_eq_singleton eventIds db.transactions.unique member
  have inRecords : record ∈ db.records .balanceUpdated :=
    List.mem_of_mem_filter (single ▸ List.mem_singleton_self record)
  have paired : (record.eventId, record.accountId, record.change.map BalanceChange.delta) ∈
      db.transactions.rows.map fun row => (row.eventId, row.accountId, some row.delta) :=
    audited.updated ▸ List.mem_map_of_mem inRecords
  obtain ⟨row, inRows, same⟩ := List.mem_map.mp paired
  simp only [Prod.mk.injEq] at same
  obtain rfl : row = transaction :=
    List.inj_on_of_nodup_map db.transactions.unique inRows member (same.1.trans sameId)
  obtain ⟨change, carried, delta⟩ := Option.map_eq_some_iff.mp same.2.2.symm
  exact ⟨record, change, single, same.2.1.symm, carried, delta⟩

/-- Paired records and rows have the same amounts for each account. -/
theorem changes_paired {accountId : String} {records : List AuditRecord} {rows : List Transaction}
    (paired : records.map (fun record =>
        (record.eventId, record.accountId, record.change.map BalanceChange.delta)) =
      rows.map fun row => (row.eventId, row.accountId, some row.delta)) :
    ((records.filter fun record => decide (record.accountId = accountId)).filterMap
        AuditRecord.change).map BalanceChange.delta =
      (rows.filter fun row => decide (row.accountId = accountId)).map Transaction.delta := by
  induction records generalizing rows with
  | nil =>
      cases rows with
      | nil => rfl
      | cons row rest => cases paired
  | cons record records ih =>
      cases rows with
      | nil => cases paired
      | cons row rest =>
          obtain ⟨same, others⟩ := List.cons.inj paired
          simp only [Prod.mk.injEq] at same
          obtain ⟨_, account, delta⟩ := same
          obtain ⟨change, carried, amount⟩ := Option.map_eq_some_iff.mp delta
          have later := ih others
          by_cases own : row.accountId = accountId
          · simp [account, own, carried, amount, later]
          · simp [account, own, later]

/-- The changes of an account carry the amounts of its transactions. -/
theorem Database.Audited.deltas (audited : db.Audited) (accountId : String) :
    (db.changes accountId).map BalanceChange.delta =
      (db.transactionsOf accountId).map Transaction.delta := changes_paired audited.updated

/-- The first changes of an account add up to the sum of its first transactions. -/
theorem Database.Audited.deltaSum_prefix (audited : db.Audited) {accountId : String}
    {first : List BalanceChange} (shorter : first <+: db.changes accountId) :
    ∃ rows, rows <+: db.transactionsOf accountId ∧ deltaSum first = signedSum rows := by
  have part : first.map BalanceChange.delta <+:
      (db.transactionsOf accountId).map Transaction.delta :=
    audited.deltas accountId ▸ shorter.map _
  obtain ⟨rows, before, same⟩ := List.prefix_map_iff.mp part
  refine ⟨rows, before, ?_⟩
  have units := congrArg (fun deltas => (deltas.map Decimal.units).sum) same
  simpa [deltaSum, signedSum, List.map_map, Function.comp_def] using units

/-- The audit records reconstruct the ledger after every history. The sums of their chains are those
of the decimal context, and exact as long as it represents them. -/
theorem audit_reconstructs_ledger (lossless : storage.Exact) (requests : List Request) :
    let db := (History.after storage requests).db
    db.TransactionsAudited ∧ ∀ account ∈ db.accounts.rows,
      db.AccountAudited BalanceChange.Adds account ∧
        ((∀ first, first <+: db.transactionsOf account.accountId →
            Decimal.Exact (signedSum first)) →
          db.AccountAudited BalanceChange.Sums account) := by
  intro db
  have audited : db.Audited := History.audited lossless requests
  refine ⟨fun transaction member => ?_, fun account member => ?_⟩
  · refine ⟨History.owned storage requests transaction member, audited.update_record member, ?_⟩
    obtain ⟨record, single, _⟩ :=
      exists_filter_eq_singleton audited.applied db.transactions.unique member
    exact ⟨record, single⟩
  · obtain ⟨record, single, _⟩ :=
      exists_filter_eq_singleton audited.created db.accounts.unique member
    have chain := audited.chain account.accountId
    rw [Database.balanceOf, Table.get_of_mem member] at chain
    refine ⟨⟨⟨record, single⟩, chain⟩, fun fits => ⟨⟨record, single⟩, chain.exact ?_⟩⟩
    intro first shorter
    obtain ⟨rows, before, same⟩ := audited.deltaSum_prefix shorter
    rw [same, Decimal.zero_units, Int.zero_add]
    exact fits rows before

/-- Two credits of one account are accepted, one is replayed and one event id is reused. -/
def twoCredits : List Request :=
  [.direct creditX "trace", .direct creditY "trace", .direct creditX "again",
    .direct creditReused "trace"]

theorem audit_reconstructs_ledger_two :
    let db := (History.after .wallClock twoCredits).db
    (db.changes "a" = [⟨0, ⟨100⟩, ⟨100⟩⟩, ⟨⟨100⟩, ⟨50⟩, ⟨150⟩⟩] ∧
      db.audit.length = 7) ∧ db.TransactionsAudited ∧
    ∃ account ∈ db.accounts.rows, account.accountId = "a" ∧ account.balance = ⟨150⟩ ∧
      db.AccountAudited BalanceChange.Sums account := by
  intro db
  obtain ⟨transactions, accounts⟩ := audit_reconstructs_ledger Storage.wallClock_exact twoCredits
  have stored : db.accounts.rows = [⟨"a", "USD", ⟨150⟩⟩] := by decide +kernel
  have sums : ∀ first ∈ (db.transactionsOf "a").inits, Decimal.Exact (signedSum first) := by
    decide +kernel
  refine ⟨by decide +kernel, transactions, ⟨"a", "USD", ⟨150⟩⟩, ?_, rfl, rfl, ?_⟩
  · rw [stored]
    exact List.mem_singleton_self _
  · refine (accounts _ ?_).2 fun first shorter => sums first ((List.mem_inits _ _).mpr shorter)
    exact stored ▸ List.mem_singleton_self _

/-- The largest credits are all stored. -/
theorem largestCredits_signedSum {n : Nat} (small : n ≤ 10 ^ 9 + 1) :
    signedSum ((History.after .wallClock (largestCredits n)).db.transactionsOf "a") =
      n * (10 ^ 19 - 1) := by
  induction n with
  | zero => rfl
  | succ n ih =>
      have tracks := largestCredits_tracked (show n ≤ 10 ^ 9 by omega)
        (largestCredits_noMismatch (by omega))
      have accepted := largestCredit_accepted (by omega) tracks
      have rows := (Request.apply_accepted accepted).2
      have own : ((largestCredit n).transaction.stored .wallClock).accountId = "a" := rfl
      have amount : signedSum [(largestCredit n).transaction.stored .wallClock] =
          10 ^ 19 - 1 := rfl
      rw [largestCredits_succ, History.after_concat, History.serve,
        Database.transactionsOf_append rows "a", if_pos own, signedSum_append, ih (by omega), amount]
      push_cast
      ring

/-- One more credit on a balance of 28 digits is added with rounding, and its record is no exact
link of the chain. -/
theorem largestCredits_not_reconstructed :
    ¬ ∀ requests : List Request,
      let db := (History.after .wallClock requests).db
      db.TransactionsAudited ∧
        ∀ account ∈ db.accounts.rows, db.AccountAudited BalanceChange.Sums account := by
  intro reconstructs
  obtain ⟨n, billion⟩ : ∃ n, n = 10 ^ 9 := ⟨_, rfl⟩
  obtain ⟨account, stored, own, rounded⟩ := largestCredits_rounded billion
  have audited := History.audited Storage.wallClock_exact (largestCredits (n + 1))
  have total := ((reconstructs (largestCredits (n + 1))).2 account stored).chain.total
  have sum := congrArg (fun deltas => (deltas.map Decimal.units).sum) (audited.deltas "a")
  have exactly := largestCredits_signedSum (show n + 1 ≤ 10 ^ 9 + 1 by omega)
  simp only [List.map_map, Function.comp_def] at sum
  rw [own, rounded, deltaSum, sum, Decimal.zero_units] at total
  rw [signedSum] at exactly
  rw [exactly] at total
  push_cast at total
  omega

end EventLedger.AccountService
