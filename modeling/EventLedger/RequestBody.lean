import EventLedger.Python.DecimalText
import EventLedger.Python.Timestamp
import EventLedger.Schema

namespace EventLedger
open Python

/-- The schema library reads decimals and datetimes from JSON values, and it reads the text of a finite
number and of the ISO format. -/
structure Pydantic where
  decimal : Json → Option {value : PyDecimal // value.InRange}
  datetime : Json → Option {value : Timestamp // value.Valid}
  decimalText : ∀ text value, (inRange : value.InRange) → PyDecimal.parse text = some value →
    decimal (.str text) = some ⟨value, inRange⟩
  datetimeText : ∀ text value, (valid : value.Valid) → Timestamp.parse text = some value →
    datetime (.str text) = some ⟨value, valid⟩

def TransactionType.value : TransactionType → String
  | .credit => "CREDIT"
  | .debit => "DEBIT"

def TransactionType.read : Json → Option TransactionType
  | .str "CREDIT" => some .credit
  | .str "DEBIT" => some .debit
  | _ => none

/-- A string field takes only strings. -/
def readString : Json → Option String
  | .str value => some value
  | _ => none

/-- A field is read under its alias or else under its own name. -/
def readField (entries : List (String × Json)) (aliasName name : String) : Option Json :=
  (entries.lookup aliasName).or (entries.lookup name)

/-- These attributes are read from a request body before the field checks. -/
structure Body where
  eventId : String
  accountId : String
  type : TransactionType
  amount : {value : PyDecimal // value.InRange}
  currency : String
  eventTimestamp : {value : Timestamp // value.Valid}

/-- Both schemas read the same transaction fields and ignore all others. -/
def Body.read (pydantic : Pydantic) : Json → Option Body
  | .obj entries => do
      let eventId ← (readField entries "eventId" "event_id").bind readString
      let accountId ← (readField entries "accountId" "account_id").bind readString
      let type ← (entries.lookup "type").bind TransactionType.read
      let amount ← (entries.lookup "amount").bind pydantic.decimal
      let currency ← (entries.lookup "currency").bind readString
      let eventTimestamp ←
        (readField entries "eventTimestamp" "event_timestamp").bind pydantic.datetime
      return ⟨eventId, accountId, type, amount, currency, eventTimestamp⟩
  | _ => none

/-- The metadata of an event is absent, null or an object. -/
def readMetadata : Json → Option (Option (List (String × Json)))
  | .obj entries =>
      match entries.lookup "metadata" with
      | none | some .null => some none
      | some (.obj metadata) => some (some metadata)
      | some _ => none
  | _ => none

/-- The field checks see the amount as a number of ten-thousandths and the timestamp as an instant
with an offset. -/
def Body.payload (body : Body) : Option Payload :=
  body.amount.val.toDecimal.map fun amount =>
    ⟨body.eventId, body.accountId, body.type, amount, body.currency,
      body.eventTimestamp.val.datetime body.eventTimestamp.property⟩

/-- The gateway reads a request body and keeps its attributes, with the currency in upper case. -/
def EventCreate.parse (pydantic : Pydantic) (unicode : Unicode) (json : Json) :
    Option (Body × EventCreate) := do
  let body ← Body.read pydantic json
  let metadata ← readMetadata json
  let payload ← body.payload
  let command ← EventCreate.validate unicode payload metadata
  return ({ body with currency := command.currency }, command)

/-- The Account Service reads a request body. -/
def TransactionCreate.parse (pydantic : Pydantic) (unicode : Unicode) (json : Json) :
    Option TransactionCreate := do
  let body ← Body.read pydantic json
  let payload ← body.payload
  TransactionCreate.validate unicode payload

end EventLedger
