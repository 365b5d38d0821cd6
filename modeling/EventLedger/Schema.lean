import EventLedger.Library.Ordering
import EventLedger.Python.Decimal
import EventLedger.Python.Datetime
import EventLedger.Python.Json
import Mathlib.Data.String.Basic

namespace EventLedger
open Python

/-- Both services accept these two transaction types. -/
inductive TransactionType where
  | credit
  | debit
  deriving DecidableEq, Repr

/-- The string methods of the schema validators cover the full Unicode tables. -/
structure Unicode where
  upper : String → String
  isAlpha : String → Bool
  upperIdempotent : ∀ value, upper (upper value) = upper value

/-- These methods agree with the full tables on upper case letters of the Latin alphabet. -/
def Unicode.latin : Unicode where
  upper value := value
  isAlpha value := value.toList.all Char.isUpper
  upperIdempotent _ := rfl

/-- A payload carries the transaction fields of a request body, before the field checks. -/
structure Payload where
  eventId : String
  accountId : String
  type : TransactionType
  amount : Decimal
  currency : String
  eventTimestamp : Datetime
  deriving DecidableEq

/-- The schemas admit identifiers of 1 to 128 characters. -/
def identifierLength (value : String) : Prop := 1 ≤ value.length ∧ value.length ≤ 128

instance (value : String) : Decidable (identifierLength value) :=
  inferInstanceAs (Decidable (_ ∧ _))

/-- The schemas admit positive amounts of 19 digits, four of them decimals. -/
def amountDigits (amount : Decimal) : Prop := 0 < amount.units ∧ amount.units < 10 ^ 19

instance (amount : Decimal) : Decidable (amountDigits amount) :=
  inferInstanceAs (Decidable (_ ∧ _))

/-- The length of the currency is checked before its validator changes the case. -/
def currencyUpper (unicode : Unicode) (currency : String) : Option String :=
  if currency.length = 3 then
    let value := unicode.upper currency
    if unicode.isAlpha value then some value else none
  else none

/-- The Account Service accepts only commands that satisfy every field check. -/
structure TransactionCreate where
  eventId : String
  accountId : String
  type : TransactionType
  amount : Decimal
  currency : String
  eventTimestamp : Datetime
  eventIdLength : identifierLength eventId
  accountIdLength : identifierLength accountId
  amountAccepted : amountDigits amount
  timezoneRequired : eventTimestamp.tzinfo.isSome
  deriving DecidableEq

/-- This function is the validation of an Account Service request body. -/
def TransactionCreate.validate (unicode : Unicode) (body : Payload) : Option TransactionCreate :=
  if fields : identifierLength body.eventId ∧ identifierLength body.accountId ∧
      amountDigits body.amount ∧ body.eventTimestamp.tzinfo.isSome then
    (currencyUpper unicode body.currency).map fun currency =>
      { body with
        currency := currency
        eventIdLength := fields.1
        accountIdLength := fields.2.1
        amountAccepted := fields.2.2.1
        timezoneRequired := fields.2.2.2 }
  else none

/-- The Event Gateway accepts only commands that satisfy every field check. -/
structure EventCreate where
  eventId : String
  accountId : String
  type : TransactionType
  amount : Decimal
  currency : String
  eventTimestamp : Datetime
  metadata : Option (List (String × Json))
  eventIdLength : identifierLength eventId
  accountIdLength : identifierLength accountId
  amountAccepted : amountDigits amount
  timezoneRequired : eventTimestamp.tzinfo.isSome

/-- This function is the validation of an Event Gateway request body. -/
def EventCreate.validate (unicode : Unicode) (body : Payload)
    (metadata : Option (List (String × Json))) : Option EventCreate :=
  if fields : identifierLength body.eventId ∧ identifierLength body.accountId ∧
      amountDigits body.amount ∧ body.eventTimestamp.tzinfo.isSome then
    (currencyUpper unicode body.currency).map fun currency =>
      { body with
        currency := currency
        metadata := metadata
        eventIdLength := fields.1
        accountIdLength := fields.2.1
        amountAccepted := fields.2.2.1
        timezoneRequired := fields.2.2.2 }
  else none

/-- An accepted amount is far below the decimal context precision. -/
theorem amountDigits.exact {amount : Decimal} (accepted : amountDigits amount) :
    Decimal.Exact amount.units := by
  obtain ⟨positive, bounded⟩ := accepted
  refine Decimal.exact_of_lt ?_
  unfold Decimal.precision
  omega

/-- Validation accepts only a converted currency. -/
theorem currencyUpper_eq_some {unicode : Unicode} {currency value : String}
    (accepted : currencyUpper unicode currency = some value) : value = unicode.upper currency := by
  unfold currencyUpper at accepted
  split at accepted
  · exact (Option.some.inj (Option.ite_none_right_eq_some.mp accepted).2).symm
  · cases accepted

/-- Validation changes only the case of the currency. -/
theorem TransactionCreate.validate_eq_some {unicode : Unicode} {body : Payload}
    {command : TransactionCreate} (accepted : validate unicode body = some command) :
    command.eventId = body.eventId ∧ command.accountId = body.accountId ∧
      command.type = body.type ∧ command.amount = body.amount ∧
      command.currency = unicode.upper body.currency ∧
      command.eventTimestamp = body.eventTimestamp := by
  unfold validate at accepted
  split at accepted
  · obtain ⟨currency, upper, rfl⟩ := Option.map_eq_some_iff.mp accepted
    exact ⟨rfl, rfl, rfl, rfl, currencyUpper_eq_some upper, rfl⟩
  · cases accepted

/-- Validation keeps the transaction fields and changes only the case of the currency. -/
theorem EventCreate.validate_eq_some {unicode : Unicode} {body : Payload}
    {metadata : Option (List (String × Json))} {command : EventCreate}
    (accepted : validate unicode body metadata = some command) :
    command.eventId = body.eventId ∧ command.accountId = body.accountId ∧
      command.type = body.type ∧ command.amount = body.amount ∧
      command.currency = unicode.upper body.currency ∧
      command.eventTimestamp = body.eventTimestamp ∧ command.metadata = metadata := by
  unfold validate at accepted
  split at accepted
  · obtain ⟨currency, upper, rfl⟩ := Option.map_eq_some_iff.mp accepted
    exact ⟨rfl, rfl, rfl, rfl, currencyUpper_eq_some upper, rfl, rfl⟩
  · cases accepted

section Chronology
open Library

/-- Both services sort by the instant and then by the event id. -/
def instantKey (timestamp : Datetime) (eventId : String) : Int ×ₗ String :=
  toLex (timestamp.instant, eventId)

/-- The wall clock of a timestamp with the event id. -/
def wallKey (timestamp : Datetime) (eventId : String) : Int ×ₗ String :=
  toLex (timestamp.wall, eventId)

/-- A timestamp without its offset is sorted by its wall clock. -/
@[simp] theorem instantKey_dropOffset (timestamp : Datetime) (eventId : String) :
    instantKey timestamp.dropOffset eventId = wallKey timestamp eventId := by
  simp [instantKey, wallKey, Datetime.instant, Datetime.offset, Datetime.dropOffset]

/-- Timestamps of one offset are ordered alike by their wall clocks. -/
theorem wallKey_le_of_offset {a b : Datetime} {first second : String} (same : a.offset = b.offset)
    (order : instantKey a first ≤ instantKey b second) : wallKey a first ≤ wallKey b second := by
  simp only [instantKey, wallKey, Prod.Lex.toLex_le_toLex, Datetime.instant] at order ⊢
  rcases order with earlier | ⟨equal, ids⟩
  · exact .inl (by omega)
  · exact .inr ⟨by omega, ids⟩

/-- Distinct event ids give distinct keys. -/
theorem nodup_keys {ρ : Type} {rows : List ρ} {eventId : ρ → String}
    (distinct : (rows.map eventId).Nodup) (time : ρ → Int) :
    (rows.map fun row => (toLex (time row, eventId row) : Int ×ₗ String)).Nodup := by
  refine List.Nodup.of_map (fun key : Int ×ₗ String => (ofLex key).2) ?_
  rw [List.map_map]
  exact distinct

end Chronology

section Samples

/-- This command credits account `a` in dollars. -/
def TransactionCreate.creditOf (eventId : String) (units : Int) (eventTimestamp : Datetime)
    (eventIdLength : identifierLength eventId := by decide)
    (amountAccepted : amountDigits ⟨units⟩ := by decide)
    (timezoneRequired : eventTimestamp.tzinfo.isSome := by rfl) : TransactionCreate where
  eventId := eventId
  accountId := "a"
  type := .credit
  amount := ⟨units⟩
  currency := "USD"
  eventTimestamp := eventTimestamp
  eventIdLength := eventIdLength
  accountIdLength := by decide
  amountAccepted := amountAccepted
  timezoneRequired := timezoneRequired

def creditX : TransactionCreate := .creditOf "x" 100 .epoch
def creditY : TransactionCreate := .creditOf "y" 50 .epoch
def creditZ : TransactionCreate := .creditOf "z" 70 .epoch

/-- This credit reuses an event id with another amount. -/
def creditReused : TransactionCreate := .creditOf "x" 50 .epoch

/-- This credit has a timestamp at another offset than UTC. -/
def creditEastern : TransactionCreate := .creditOf "x" 100 .eastern

/-- The gateway accepts the fields of every command of the Account Service. -/
def TransactionCreate.event (command : TransactionCreate) : EventCreate :=
  { command with metadata := none }

/-- A command is the payload of its own request body. -/
def TransactionCreate.body (command : TransactionCreate) : Payload :=
  ⟨command.eventId, command.accountId, command.type, command.amount, command.currency,
    command.eventTimestamp⟩

end Samples

end EventLedger
