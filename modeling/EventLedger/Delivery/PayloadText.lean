import EventLedger.EventGateway.EventService
import EventLedger.RequestBody

namespace EventLedger.Delivery
open Python

variable {pydantic : Pydantic} {unicode : Unicode} {json : Json} {body attributes : Body}
  {command : EventCreate}

/-- A submit builds its payload from the attributes of its command. -/
def payloadJson (command : Body) : Json :=
  .obj [("eventId", .str command.eventId), ("accountId", .str command.accountId),
    ("type", .str command.type.value), ("amount", .str command.amount.val.str),
    ("currency", .str command.currency),
    ("eventTimestamp", .str command.eventTimestamp.val.isoformat)]

/-- A payload is accepted when the Account Service reads the command of the event from it. -/
def Accepted (pydantic : Pydantic) (unicode : Unicode) (payload : Json) (command : EventCreate) :
    Prop :=
  ∃ received, TransactionCreate.parse pydantic unicode payload = some received ∧
    received.eventId = command.eventId ∧ received.accountId = command.accountId ∧
    received.type = command.type ∧ received.amount = command.amount ∧
    received.currency = command.currency ∧
    received.eventTimestamp.instant = command.eventTimestamp.instant

theorem TransactionType.read_value (type : TransactionType) :
    TransactionType.read (.str type.value) = some type := by
  cases type <;> rfl

/-- The Account Service reads every attribute back from the payload. -/
theorem read_payloadJson (pydantic : Pydantic) (attributes : Body) :
    Body.read pydantic (payloadJson attributes) = some attributes := by
  have amount : pydantic.decimal (.str attributes.amount.val.str) = some attributes.amount :=
    pydantic.decimalText _ _ attributes.amount.property (PyDecimal.parse_str _)
  have eventTimestamp :
      pydantic.datetime (.str attributes.eventTimestamp.val.isoformat) =
        some attributes.eventTimestamp :=
    pydantic.datetimeText _ _ attributes.eventTimestamp.property
      (Timestamp.parse_isoformat attributes.eventTimestamp.property)
  simp [Body.read, payloadJson, readField, readString, List.lookup_cons, TransactionType.read_value,
    amount, eventTimestamp]

/-- The currency check accepts a converted currency exactly when it still has three letters. -/
theorem currencyUpper_upper {currency value : String}
    (accepted : currencyUpper unicode currency = some value) :
    currencyUpper unicode value = if value.length = 3 then some value else none := by
  have same := currencyUpper_eq_some accepted
  unfold currencyUpper at accepted ⊢
  have alphabetic : unicode.isAlpha (unicode.upper currency) := by
    split at accepted
    · exact (Option.ite_none_right_eq_some.mp accepted).1
    · cases accepted
  rw [same, unicode.upperIdempotent]
  simp only [alphabetic, if_true]

/-- The Account Service accepts a checked payload exactly when it accepts its currency. -/
theorem validate_isSome_iff {payload : Payload} {metadata : Option (List (String × Json))}
    (accepted : EventCreate.validate unicode payload metadata = some command) :
    (∃ received, TransactionCreate.validate unicode { payload with currency := command.currency } =
      some received) ↔ command.currency.length = 3 := by
  unfold EventCreate.validate at accepted
  split at accepted
  · next fields =>
      obtain ⟨currency, upper, rfl⟩ := Option.map_eq_some_iff.mp accepted
      simp only [TransactionCreate.validate]
      rw [dif_pos fields, currencyUpper_upper upper]
      by_cases letters : currency.length = 3
      · simp [letters]
      · simp [letters]
  · cases accepted

/-- The Account Service checks the same fields as the gateway, with the converted currency. -/
theorem parse_payloadJson (read : Body.read pydantic json = some body)
    (accepted : EventCreate.parse pydantic unicode json = some (attributes, command)) :
    ∃ payload metadata, payload.currency = body.currency ∧
      EventCreate.validate unicode payload metadata = some command ∧
      TransactionCreate.parse pydantic unicode (payloadJson attributes) =
        TransactionCreate.validate unicode { payload with currency := command.currency } := by
  simp only [EventCreate.parse, read, Option.bind_eq_bind, Option.bind_some, Option.pure_def,
    Option.bind_eq_some_iff, Option.some.injEq, Prod.mk.injEq] at accepted
  obtain ⟨metadata, _, payload, amount, checked, validated, rfl, rfl⟩ := accepted
  obtain ⟨units, converted, rfl⟩ := Option.map_eq_some_iff.mp amount
  refine ⟨_, metadata, rfl, validated, ?_⟩
  simp only [TransactionCreate.parse, read_payloadJson, Body.payload, converted, Option.map_some,
    Option.bind_eq_bind, Option.bind_some]

/-- The text of the payload stands for the payload of the submission. -/
theorem parse_payloadJson_submission (read : Body.read pydantic json = some body)
    (accepted : EventCreate.parse pydantic unicode json = some (attributes, command))
    (traceId : String) :
    TransactionCreate.parse pydantic unicode (payloadJson attributes) =
      TransactionCreate.validate unicode (EventGateway.Submission.payload ⟨command, traceId⟩) := by
  obtain ⟨payload, metadata, _, validated, parsed⟩ := parse_payloadJson read accepted
  obtain ⟨eventId, accountId, type, amount, _, eventTimestamp, _⟩ :=
    EventCreate.validate_eq_some validated
  rw [parsed, EventGateway.Submission.payload, eventId, accountId, type, amount, eventTimestamp]

/-- The Account Service accepts the payload of an accepted request body exactly when the currency has
three letters in upper case. -/
theorem payload_accepted_iff (read : Body.read pydantic json = some body)
    (accepted : EventCreate.parse pydantic unicode json = some (attributes, command)) :
    Accepted pydantic unicode (payloadJson attributes) command ↔
      (unicode.upper body.currency).length = 3 := by
  obtain ⟨payload, metadata, own, validated, parsed⟩ := parse_payloadJson read accepted
  obtain ⟨eventId, accountId, type, amount, currency, eventTimestamp, _⟩ :=
    EventCreate.validate_eq_some validated
  rw [← own, ← currency, ← validate_isSome_iff validated, Accepted, parsed]
  constructor
  · rintro ⟨received, found, _⟩
    exact ⟨received, found⟩
  · rintro ⟨received, found⟩
    obtain ⟨sameId, sameAccount, sameType, sameAmount, sameCurrency, sameTimestamp⟩ :=
      TransactionCreate.validate_eq_some found
    refine ⟨received, found, sameId.trans eventId.symm, sameAccount.trans accountId.symm,
      sameType.trans type.symm, sameAmount.trans amount.symm, ?_, ?_⟩
    · rw [sameCurrency, currency, unicode.upperIdempotent]
    · rw [sameTimestamp, eventTimestamp]

section Samples

/-- This schema library reads only texts. -/
def Pydantic.texts : Pydantic where
  decimal
    | .str text => (PyDecimal.parse text).bind fun value =>
        if inRange : value.InRange then some ⟨value, inRange⟩ else none
    | _ => none
  datetime
    | .str text => (Timestamp.parse text).bind fun value =>
        if valid : value.Valid then some ⟨value, valid⟩ else none
    | _ => none
  decimalText text value inRange parsed := by
    simp only [parsed, Option.bind_some, dif_pos inRange]
  datetimeText text value valid parsed := by
    simp only [parsed, Option.bind_some, dif_pos valid]

/-- This conversion is the one of the full tables on the letters `A` to `Z` and `ß`. -/
def Unicode.german : Unicode where
  upper value := String.ofList (value.toList.flatMap fun c => if c = 'ß' then ['S', 'S'] else [c])
  isAlpha value := value.toList.all Char.isUpper
  upperIdempotent value := by
    rw [String.toList_ofList]
    refine congrArg String.ofList ?_
    induction value.toList with
    | nil => rfl
    | cons c rest ih =>
        rw [List.flatMap_cons, List.flatMap_append, ih]
        by_cases sharp : c = 'ß' <;> simp [sharp]

/-- This body credits one cent on the first day of year 1. -/
def Body.cent (currency : String) : Body where
  eventId := "x"
  accountId := "a"
  type := .credit
  amount := ⟨⟨false, 1, -2⟩, by decide⟩
  currency := currency
  eventTimestamp := ⟨⟨1, 1, 1, 0, 0, 0, 0, some 0⟩, by decide⟩

/-- The gateway accepts this body with every accepted currency. -/
theorem Body.cent_accepted (currency : String)
    (letters : (currencyUpper Unicode.german currency).isSome) : ∃ attributes command,
    EventCreate.parse Pydantic.texts Unicode.german (payloadJson (Body.cent currency)) =
      some (attributes, command) := by
  obtain ⟨value, upper⟩ := Option.isSome_iff_exists.mp letters
  have read := read_payloadJson Pydantic.texts (Body.cent currency)
  have metadata : readMetadata (payloadJson (Body.cent currency)) = some none := by
    simp [readMetadata, payloadJson, List.lookup_cons]
  have amount : (Body.cent currency).amount.val.toDecimal = some ⟨100⟩ := rfl
  have fields : identifierLength "x" ∧ identifierLength "a" ∧ amountDigits ⟨100⟩ := by decide
  have aware : ((Body.cent currency).eventTimestamp.val.datetime
      (Body.cent currency).eventTimestamp.property).tzinfo.isSome := rfl
  have accepted : (EventCreate.parse Pydantic.texts Unicode.german
      (payloadJson (Body.cent currency))).isSome := by
    simp only [EventCreate.parse, read, metadata, Body.payload, amount, Option.map_some,
      Option.bind_eq_bind, Option.bind_some]
    rw [EventCreate.validate, dif_pos ⟨fields.1, fields.2.1, fields.2.2, aware⟩]
    simp only [Body.cent, upper, Option.map_some, Option.bind_some]
    rfl
  obtain ⟨⟨attributes, command⟩, accepted⟩ := Option.isSome_iff_exists.mp accepted
  exact ⟨attributes, command, accepted⟩

end Samples

theorem payload_accepted_dollars : ∃ attributes command,
    EventCreate.parse Pydantic.texts Unicode.german (payloadJson (Body.cent "USD")) =
      some (attributes, command) ∧
    Accepted Pydantic.texts Unicode.german (payloadJson attributes) command := by
  obtain ⟨attributes, command, accepted⟩ := Body.cent_accepted "USD" (by decide)
  exact ⟨attributes, command, accepted,
    (payload_accepted_iff (read_payloadJson _ (Body.cent "USD")) accepted).mpr (by decide)⟩

/-- The upper case of a sharp s has two letters. -/
theorem payload_sharp_rejected : ∃ attributes command,
    EventCreate.parse Pydantic.texts Unicode.german (payloadJson (Body.cent "ßAB")) =
      some (attributes, command) ∧
    ¬ Accepted Pydantic.texts Unicode.german (payloadJson attributes) command := by
  obtain ⟨attributes, command, accepted⟩ := Body.cent_accepted "ßAB" (by decide)
  refine ⟨attributes, command, accepted, ?_⟩
  obtain ⟨payload, metadata, own, validated, parsed⟩ :=
    parse_payloadJson (read_payloadJson _ (Body.cent "ßAB")) accepted
  obtain ⟨_, _, _, _, currency, _⟩ := EventCreate.validate_eq_some validated
  rintro ⟨received, found, _⟩
  rw [parsed] at found
  have letters := (validate_isSome_iff validated).mp ⟨received, found⟩
  rw [currency, own] at letters
  revert letters
  decide

end EventLedger.Delivery
