import EventLedger.EventGateway.EventService
import EventLedger.Library.MultiDict
import EventLedger.Python.JsonWriter

namespace EventLedger.EventGateway
open Library Python

/-- The names of headers are compared without their case. -/
abbrev Headers := MultiDict String.toLower String

/-- A response to a request, whose content may not be JSON. -/
structure GatewayResponse where
  statusCode : Nat
  headers : Headers
  content : Option Json

/-- A part of a location is a name or an index. -/
inductive LocationPart where
  | name (text : String)
  | index (position : Nat)
  deriving DecidableEq

def LocationPart.text : LocationPart → String
  | .name text => text
  | .index position => toString position

structure ValidationItem where
  loc : List LocationPart
  msg : String

/-- An exception has one of the classes that the inner handlers know, or another class. -/
inductive Exception where
  | requestValidationError (errors : List ValidationItem)
  | httpException (statusCode : Nat) (detail : Json) (headers : Headers)
  | sqlAlchemyError
  | other

/-- An endpoint reads the trace id of its context and returns a response or raises an exception. -/
abbrev Endpoint := String → Except Exception GatewayResponse

/-- A response is rendered when it is created. -/
def jsonResponse (statusCode : Nat) (headers : Headers) (content : Json) :
    Except Exception GatewayResponse :=
  if content.writable then .ok ⟨statusCode, headers, some content⟩ else .error .other

/-- The body of an error names the trace id of the context. -/
def errorBody (traceId : String) (code message : Json) (retryable : Bool) (details : Json) : Json :=
  .obj [("error", .obj ([("code", code), ("message", message), ("traceId", .str traceId),
    ("retryable", .bool retryable)] ++
      match details with
      | .null => []
      | details => [("details", details)]))]

/-- The location of an invalid field leaves the body out. -/
def ValidationItem.details (item : ValidationItem) : Json :=
  .obj [("field", .str (".".intercalate
      ((item.loc.filter fun part => decide (part ≠ .name "body")).map LocationPart.text))),
    ("reason", .str item.msg)]

def validationError (errors : List ValidationItem) : Endpoint := fun traceId =>
  jsonResponse 422 (.empty ..) (errorBody traceId (.str "VALIDATION_ERROR")
    (.str "Request validation failed") false (.arr (errors.map ValidationItem.details)))

/-- A detail that is no object is turned into text by `str`. -/
def httpError (str : Json → String) (statusCode : Nat) (detail : Json) (headers : Headers) :
    Endpoint := fun traceId =>
  match detail with
  | .obj entries => jsonResponse statusCode headers (errorBody traceId
      ((entries.lookup "code").getD (.str "HTTP_ERROR"))
      ((entries.lookup "message").getD (.str "Request failed"))
      ((entries.lookup "retryable").getD (.bool false)).truthy
      ((entries.lookup "details").getD .null))
  | detail => jsonResponse statusCode headers
      (errorBody traceId (.str "HTTP_ERROR") (.str (str detail)) false .null)

def databaseError : Endpoint := fun traceId =>
  jsonResponse 503 (.empty ..) (errorBody traceId (.str "DATABASE_UNAVAILABLE")
    (.str "Database operation failed") true .null)

/-- The last handler answers every exception, and its body can always be written. -/
def genericError (traceId : String) : GatewayResponse where
  statusCode := 500
  headers := .empty ..
  content :=
    errorBody traceId (.str "INTERNAL_ERROR") (.str "Unexpected internal error") false .null

/-- The inner handlers answer the exceptions of their classes and let the others through. -/
def exceptionMiddleware (str : Json → String) (callNext : Endpoint) : Endpoint := fun traceId =>
  match callNext traceId with
  | .error (.requestValidationError errors) => validationError errors traceId
  | .error (.httpException statusCode detail headers) =>
      httpError str statusCode detail headers traceId
  | .error .sqlAlchemyError => databaseError traceId
  | result => result

/-- The handlers give each exception its status. -/
def Exception.status : Exception → Nat
  | .requestValidationError _ => 422
  | .httpException statusCode _ _ => statusCode
  | .sqlAlchemyError => 503
  | .other => 500

/-- The error member of a body. -/
def GatewayResponse.error (response : GatewayResponse) : Option Json :=
  response.content.bind (Json.member "error")

/-- The error of a response names a trace id, if there is one. -/
def GatewayResponse.NamesTrace (response : GatewayResponse) (traceId : String) : Prop :=
  ∀ error, response.error = some error → error.member "traceId" = some (.str traceId)

/-- The members that the body of an HTTP exception takes from its detail can be written. -/
def DetailWritable (detail : Json) : Prop :=
  ∀ name ∈ ["code", "message", "details"], ∀ value, detail.member name = some value →
    value.writable = true

/-- The inner handlers turn the end of an endpoint into a response that names a trace id. -/
def NamesTraceAtEnd (traceId : String) : Except Exception GatewayResponse → Prop
  | .ok response => response.NamesTrace traceId
  | .error (.requestValidationError _) | .error .sqlAlchemyError => True
  | .error (.httpException _ detail _) => DetailWritable detail
  | .error .other => False

section ErrorBody
variable {str : Json → String} {traceId : String} {code message details : Json} {retryable : Bool}
  {statusCode : Nat} {headers : Headers} {detail : Json} {response : GatewayResponse}

/-- The error of an error body names its trace id. -/
theorem errorBody_namesTrace :
    (⟨statusCode, headers, some (errorBody traceId code message retryable details)⟩ :
      GatewayResponse).NamesTrace traceId := by
  rintro error found
  obtain rfl := Option.some.inj found
  rfl

/-- An error body is written when its code, its message and its details are. -/
theorem errorBody_writable :
    (errorBody traceId code message retryable details).writable = true ↔
      code.writable = true ∧ message.writable = true ∧ details.writable = true := by
  cases details with
  | null | bool | int | float | str | arr | obj => simp [errorBody]

theorem jsonResponse_isOk {content : Json} :
    (∃ response, jsonResponse statusCode headers content = .ok response) ↔
      content.writable = true := by
  unfold jsonResponse
  split <;> simp [*]

/-- A response with an error body has its status and names its trace id. -/
theorem jsonResponse_errorBody
    (rendered : jsonResponse statusCode headers
      (errorBody traceId code message retryable details) = .ok response) :
    response.statusCode = statusCode ∧ response.NamesTrace traceId := by
  unfold jsonResponse at rendered
  split at rendered
  · obtain rfl := Except.ok.inj rendered
    exact ⟨rfl, errorBody_namesTrace⟩
  · cases rendered

/-- The report of an invalid request can always be written. -/
theorem validationError_isOk (errors : List ValidationItem) :
    ∃ response, validationError errors traceId = .ok response := by
  have written : (Json.arr (errors.map ValidationItem.details)).writable = true := by
    refine (Json.writable_arr _).mpr fun item found => ?_
    obtain ⟨error, _, rfl⟩ := List.mem_map.mp found
    rfl
  exact jsonResponse_isOk.mpr (errorBody_writable.mpr ⟨rfl, rfl, written⟩)

theorem databaseError_isOk : ∃ response, databaseError traceId = .ok response :=
  jsonResponse_isOk.mpr (errorBody_writable.mpr ⟨rfl, rfl, rfl⟩)

theorem httpError_isOk :
    (∃ response, httpError str statusCode detail headers traceId = .ok response) ↔
      DetailWritable detail := by
  cases detail with
  | obj entries =>
      rw [httpError, jsonResponse_isOk, errorBody_writable]
      simp only [DetailWritable, Json.member, List.forall_mem_cons, List.not_mem_nil, false_imp_iff,
        implies_true, and_true]
      refine and_congr ?_ (and_congr ?_ ?_)
      · cases entries.lookup "code" <;> simp
      · cases entries.lookup "message" <;> simp
      · cases entries.lookup "details" <;> simp
  | null | bool | int | float | str | arr =>
      rw [httpError, jsonResponse_isOk, errorBody_writable]
      · simp [DetailWritable, Json.member]
      · intro entries same
        cases same

end ErrorBody

section Handlers
variable {str : Json → String} {callNext : Endpoint} {traceId : String} {exception : Exception}
  {response : GatewayResponse}

/-- The response to an exception has its status and names the trace id of the context. -/
theorem exceptionMiddleware_of_error (raised : callNext traceId = .error exception)
    (handled : exceptionMiddleware str callNext traceId = .ok response) :
    response.statusCode = exception.status ∧ response.NamesTrace traceId := by
  rw [exceptionMiddleware, raised] at handled
  cases exception with
  | requestValidationError errors => exact jsonResponse_errorBody handled
  | httpException statusCode detail headers =>
      cases detail with
      | null | bool | int | float | str | arr | obj => exact jsonResponse_errorBody handled
  | sqlAlchemyError => exact jsonResponse_errorBody handled
  | other => cases handled

/-- The inner handlers answer under a trace id exactly when the end of the endpoint allows it. -/
theorem exceptionMiddleware_namesTrace :
    (∃ response, exceptionMiddleware str callNext traceId = .ok response ∧
      response.NamesTrace traceId) ↔ NamesTraceAtEnd traceId (callNext traceId) := by
  cases ended : callNext traceId with
  | ok response => simp [exceptionMiddleware, ended, NamesTraceAtEnd]
  | error exception =>
      have answered : (∃ response, exceptionMiddleware str callNext traceId = .ok response ∧
          response.NamesTrace traceId) ↔
          ∃ response, exceptionMiddleware str callNext traceId = .ok response :=
        exists_congr fun response =>
          and_iff_left_of_imp fun handled => (exceptionMiddleware_of_error ended handled).2
      rw [answered, exceptionMiddleware, ended]
      cases exception with
      | requestValidationError errors => exact iff_true_intro (validationError_isOk errors)
      | httpException statusCode detail headers => exact httpError_isOk
      | sqlAlchemyError => exact iff_true_intro databaseError_isOk
      | other => simp [NamesTraceAtEnd]

end Handlers
end EventLedger.EventGateway
