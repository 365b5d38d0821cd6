import EventLedger.EventGateway.Errors
import EventLedger.EventGateway.RateLimit
import EventLedger.Tracing

namespace EventLedger.EventGateway
open Library Python

structure HttpRequest where
  path : String
  clientHost : Option String
  headers : Headers

/-- A request reads the clock at its check, may draw two identifiers and may belong to a span. -/
structure Moment where
  now : Rat
  correlation : Uuid
  refusal : Uuid
  otelTraceId : Option String

/-- The application keeps the limiter of the process. -/
structure HttpApp where
  rateLimitEnabled : Bool
  rateLimiter : SlidingWindowRateLimiter

def isRateLimitExempt (path : String) : Bool :=
  path == "/health" || path == "/metrics" || path == "/openapi.json" ||
    path.startsWith "/docs" || path.startsWith "/redoc"

def rateLimitKey (request : HttpRequest) : String := request.clientHost.getD "unknown"

/-- The context has this trace id outside of all requests. -/
def noTraceId : String := "-"

/-- This middleware logs an exception and lets it through. -/
def metricsAndAccessLog (callNext : Endpoint) : Endpoint := fun traceId =>
  match callNext traceId with
  | .error exception => .error exception
  | .ok response => .ok response

def RateLimitDecision.headers (decision : RateLimitDecision) : List (String × String) :=
  [("X-RateLimit-Limit", toString decision.limit),
    ("X-RateLimit-Remaining", toString decision.remaining),
    ("X-RateLimit-Reset", toString decision.resetAfter)]

/-- A refusal names the trace id of the context, or of the request when the context has none. -/
def tooManyRequests (request : HttpRequest) (moment : Moment) (decision : RateLimitDecision)
    (context : String) : Except Exception GatewayResponse :=
  let traceId :=
    if context = noTraceId then
      normalizeTraceId (request.headers.get "x-trace-id") moment.refusal.hex
    else context
  jsonResponse 429
    (.ofList (decision.headers ++
      [("Retry-After", toString decision.retryAfter), ("X-Trace-ID", traceId)]))
    (.obj [("error", .obj [
      ("code", .str "RATE_LIMIT_EXCEEDED"),
      ("message", .str "Too many requests; retry after the indicated delay"),
      ("traceId", .str traceId),
      ("retryable", .bool true),
      ("details", .obj [("retryAfterSeconds", .int decision.retryAfter)])])])

namespace HttpApp

def rateLimitMiddleware (app : HttpApp) (request : HttpRequest) (moment : Moment)
    (callNext : Endpoint) (context : String) : Except Exception GatewayResponse × HttpApp :=
  if !app.rateLimitEnabled || isRateLimitExempt request.path then (callNext context, app)
  else
    let (decision, limiter) := app.rateLimiter.check (rateLimitKey request) moment.now
    let checked := { app with rateLimiter := limiter }
    if decision.allowed then
      ((callNext context).map fun response =>
        { response with headers := response.headers.update decision.headers }, checked)
    else (tooManyRequests request moment decision context, checked)

end HttpApp

/-- The trace id of the request, or a fresh one. -/
def correlationId (request : HttpRequest) (moment : Moment) : String :=
  normalizeTraceId (request.headers.get "x-trace-id") moment.correlation.hex

/-- A response carries the trace id, and the trace id of its span if there is one. -/
def traceHeaders (correlationId : String) (otelTraceId : Option String) (headers : Headers) :
    Headers :=
  let headers := headers.set "X-Trace-ID" correlationId
  match otelTraceId with
  | some otelTraceId => headers.set "X-OpenTelemetry-Trace-ID" otelTraceId
  | none => headers

/-- The trace id is set before the inner part of the application and added to its response. -/
def tracingMiddleware (request : HttpRequest) (moment : Moment)
    (callNext : String → Except Exception GatewayResponse × HttpApp) :
    Except Exception GatewayResponse × HttpApp :=
  let correlationId := correlationId request moment
  let (result, app) := callNext correlationId
  (result.map fun response =>
    { response with headers := traceHeaders correlationId moment.otelTraceId response.headers },
    app)

/-- The last handler is outside of the middleware, where the context has no trace id. -/
def HttpApp.respond (str : Json → String) (app : HttpApp) (request : HttpRequest)
    (moment : Moment) (handler : Endpoint) : GatewayResponse × HttpApp :=
  let (result, after) := tracingMiddleware request moment
    (app.rateLimitMiddleware request moment (metricsAndAccessLog (exceptionMiddleware str handler)))
  match result with
  | .ok response => (response, after)
  | .error _ => (genericError noTraceId, after)

/-- The route of a balance returns what the Account Service answers. -/
def getBalance : CallOutcome → Except Exception GatewayResponse
  | .unavailable _ => .error (.httpException 503
      (.obj [("code", .str "ACCOUNT_SERVICE_UNAVAILABLE"),
        ("message", .str "Account information is temporarily unavailable"),
        ("retryable", .bool true)]) (.empty ..))
  | .response response =>
      match response.json with
      | some content => jsonResponse response.statusCode (.empty ..) content
      | none => .error .other
  | .raised => .error .other

/-- The constructed exceptions of a submit pass through its route. -/
def Answer.exception : Answer → Option Exception
  | .returned _ _ => none
  | .httpException status detail => some (.httpException status detail (.empty ..))
  | .unhandled => some .other
  | .databaseError => some .sqlAlchemyError

/-- The limiter refuses a request that it counts. -/
def HttpApp.Refuses (app : HttpApp) (request : HttpRequest) (moment : Moment) : Prop :=
  app.rateLimitEnabled = true ∧ isRateLimitExempt request.path = false ∧
    (app.rateLimiter.check (rateLimitKey request) moment.now).1.allowed = false

/-- A traced response carries a trace id, and its error names the same one. -/
def GatewayResponse.Traced (response : GatewayResponse) : Prop :=
  ∃ traceId, response.headers.get "X-Trace-ID" = some traceId ∧ response.NamesTrace traceId

variable {str : Json → String} {app : HttpApp} {request : HttpRequest} {moment : Moment}
  {handler callNext : Endpoint} {context : String}

/-- A request has no trace id only if it asks for that, and then a second reading agrees. -/
theorem normalizeTraceId_of_noTraceId {value : Option String} {first : Uuid} (fresh : String)
    (none : normalizeTraceId value first.hex = noTraceId) :
    normalizeTraceId value fresh = noTraceId := by
  have different : first.hex ≠ noTraceId := by
    intro same
    have length := first.length
    rw [same] at length
    exact absurd length (by decide +kernel)
  cases value with
  | none => exact absurd none different
  | some value =>
      rw [normalizeTraceId] at none
      split at none
      next matching => rw [normalizeTraceId_of_matches matching, none]
      next => exact absurd none different

/-- A refusal is rendered and names the trace id of its request. -/
theorem tooManyRequests_namesTrace (decision : RateLimitDecision) :
    ∃ response, tooManyRequests request moment decision (correlationId request moment) =
      .ok response ∧ response.NamesTrace (correlationId request moment) := by
  -- A request may ask for the trace id of the empty context, and then its header is read twice.
  have named : (if correlationId request moment = noTraceId then
      normalizeTraceId (request.headers.get "x-trace-id") moment.refusal.hex
    else correlationId request moment) = correlationId request moment := by
    split
    next none => rw [none, normalizeTraceId_of_noTraceId _ none]
    next => rfl
  unfold tooManyRequests
  rw [named]
  refine ⟨_, if_pos (by simp), ?_⟩
  rintro error found
  obtain rfl := Option.some.inj found
  rfl

theorem metricsAndAccessLog_eq : metricsAndAccessLog callNext = callNext := by
  funext traceId
  rw [metricsAndAccessLog]
  split <;> simp [*]

/-- The trace id of the span does not replace the trace id of the request. -/
theorem get_traceHeaders {traceId : String} {otelTraceId : Option String} {headers : Headers} :
    (traceHeaders traceId otelTraceId headers).get "X-Trace-ID" = some traceId := by
  cases otelTraceId with
  | none => exact MultiDict.get_set_self
  | some otelTraceId =>
      have different : "X-Trace-ID".toLower ≠ "X-OpenTelemetry-Trace-ID".toLower := by
        decide +kernel
      exact (MultiDict.get_set_of_ne different).trans MultiDict.get_set_self

/-- New headers leave the error of a response as it is. -/
theorem map_headers_namesTrace {result : Except Exception GatewayResponse} {traceId : String}
    (headers : GatewayResponse → Headers) :
    (∃ response, (result.map fun response => { response with headers := headers response }) =
      .ok response ∧ response.NamesTrace traceId) ↔
      ∃ response, result = .ok response ∧ response.NamesTrace traceId := by
  cases result with
  | error exception => simp [Except.map]
  | ok response =>
      simp only [Except.map, Except.ok.injEq, exists_eq_left']
      rfl

/-- The limiter answers a refused request itself. -/
theorem HttpApp.rateLimitMiddleware_of_refuses (callNext : Endpoint) (context : String)
    (refused : app.Refuses request moment) :
    (app.rateLimitMiddleware request moment callNext context).1 = tooManyRequests request moment
      (app.rateLimiter.check (rateLimitKey request) moment.now).1 context := by
  obtain ⟨enabled, counted, full⟩ := refused
  unfold rateLimitMiddleware
  rw [if_neg (by simp [enabled, counted])]
  exact congrArg Prod.fst (if_neg (Bool.eq_false_iff.mp full))

/-- A request that is not refused keeps the end of the inner part, up to headers. -/
theorem HttpApp.rateLimitMiddleware_of_not_refuses (callNext : Endpoint) (context : String)
    (passes : ¬ app.Refuses request moment) :
    ∃ headers : GatewayResponse → Headers,
      (app.rateLimitMiddleware request moment callNext context).1 =
        (callNext context).map fun response => { response with headers := headers response } := by
  unfold rateLimitMiddleware
  split
  next exempt =>
    refine ⟨GatewayResponse.headers, ?_⟩
    cases callNext context <;> rfl
  next counted =>
    simp only [Bool.or_eq_true, Bool.not_eq_true', not_or, Bool.not_eq_false,
      Bool.not_eq_true] at counted
    have allowed : (app.rateLimiter.check (rateLimitKey request) moment.now).1.allowed = true :=
      Bool.not_eq_false _ ▸ fun refused => passes ⟨counted.1, counted.2, refused⟩
    exact ⟨_, congrArg Prod.fst (if_pos allowed)⟩

/-- A counted request is refused or keeps the end of the inner part. -/
theorem HttpApp.rateLimitMiddleware_namesTrace :
    (∃ response, (app.rateLimitMiddleware request moment callNext
        (correlationId request moment)).1 = .ok response ∧
      response.NamesTrace (correlationId request moment)) ↔
    app.Refuses request moment ∨
      ∃ response, callNext (correlationId request moment) = .ok response ∧
        response.NamesTrace (correlationId request moment) := by
  by_cases refused : app.Refuses request moment
  · rw [rateLimitMiddleware_of_refuses callNext _ refused]
    exact iff_of_true (tooManyRequests_namesTrace _) (.inl refused)
  · obtain ⟨headers, passed⟩ := rateLimitMiddleware_of_not_refuses callNext _ refused
    rw [passed, map_headers_namesTrace, or_iff_right refused]

/-- A response carries the trace id of its request unless an exception reaches the last handler. -/
theorem HttpApp.respond_traced :
    (app.respond str request moment handler).1.Traced ↔
      ∃ response, (app.rateLimitMiddleware request moment
          (metricsAndAccessLog (exceptionMiddleware str handler))
          (correlationId request moment)).1 = .ok response ∧
        response.NamesTrace (correlationId request moment) := by
  unfold respond tracingMiddleware
  cases ended : (app.rateLimitMiddleware request moment
    (metricsAndAccessLog (exceptionMiddleware str handler)) (correlationId request moment)).1 with
  | error exception =>
      have bare : ¬ (genericError noTraceId).Traced := by
        rintro ⟨traceId, carried, -⟩
        cases carried
      simpa [ended, Except.map] using bare
  | ok response =>
      have named : ({ response with
          headers := traceHeaders (correlationId request moment) moment.otelTraceId
            response.headers } : GatewayResponse).Traced ↔
          response.NamesTrace (correlationId request moment) := by
        constructor
        · rintro ⟨traceId, carried, names⟩
          obtain rfl := Option.some.inj (get_traceHeaders.symm.trans carried)
          exact names
        · exact fun names => ⟨_, get_traceHeaders, names⟩
      simpa [ended, Except.map] using named

/-- The middleware adds headers to what it does not refuse and changes nothing else. -/
theorem HttpApp.respond_of_not_refuses (str : Json → String) (handler : Endpoint)
    (counted : ¬ app.Refuses request moment) :
    ∃ headers, (app.respond str request moment handler).1 =
      { (match exceptionMiddleware str handler (correlationId request moment) with
        | .ok response => response
        | .error _ => genericError noTraceId) with headers := headers } := by
  obtain ⟨headers, passed⟩ := rateLimitMiddleware_of_not_refuses
    (exceptionMiddleware str handler) (correlationId request moment) counted
  simp only [respond, tracingMiddleware, metricsAndAccessLog_eq, passed]
  cases exceptionMiddleware str handler (correlationId request moment) with
  | error exception => exact ⟨_, rfl⟩
  | ok response => exact ⟨_, rfl⟩

/-- A submit that ends in an exception is answered with its status. -/
theorem HttpApp.respond_status {answer : Answer} {exception : Exception}
    (ended : answer.exception = some exception)
    (raised : handler (correlationId request moment) = .error exception)
    (written : ∀ status detail, answer = .httpException status detail → DetailWritable detail)
    (counted : ¬ app.Refuses request moment) :
    (app.respond str request moment handler).1.statusCode = answer.status := by
  have same : exception.status = answer.status := by
    cases answer with
    | returned => cases ended
    | httpException | unhandled | databaseError =>
        obtain rfl := Option.some.inj ended
        rfl
  obtain ⟨headers, sent⟩ := HttpApp.respond_of_not_refuses str handler counted
  rw [sent, ← same]
  cases handled : exceptionMiddleware str handler (correlationId request moment) with
  | ok response => exact (exceptionMiddleware_of_error raised handled).1
  | error escaped =>
      have unnamed : ¬ NamesTraceAtEnd (correlationId request moment) (.error exception) := by
        intro names
        have answered : ∃ response, exceptionMiddleware str handler (correlationId request moment) =
            .ok response ∧ response.NamesTrace (correlationId request moment) :=
          exceptionMiddleware_namesTrace.mpr (raised ▸ names)
        obtain ⟨response, ok, -⟩ := answered
        cases handled.symm.trans ok
      cases answer with
      | returned => cases ended
      | httpException status detail =>
          obtain rfl := Option.some.inj ended
          exact absurd (written status detail rfl) unnamed
      | databaseError =>
          obtain rfl := Option.some.inj ended
          exact absurd trivial unnamed
      | unhandled =>
          obtain rfl := Option.some.inj ended
          rfl

/-- The route of a balance forwards a crash of the Account Service, whose error has no trace id. -/
theorem getBalance_crash {response : Response} {traceId : String}
    (crashed : response.json = (genericError noTraceId).content) :
    NamesTraceAtEnd traceId (getBalance (.response response)) ↔ traceId = noTraceId := by
  have written : (errorBody noTraceId (.str "INTERNAL_ERROR") (.str "Unexpected internal error")
      false .null).writable = true :=
    errorBody_writable.mpr ⟨rfl, rfl, rfl⟩
  rw [getBalance, crashed, genericError]
  simp only [jsonResponse, written, if_true, NamesTraceAtEnd]
  constructor
  · intro names
    exact (Json.str.inj (Option.some.inj (names _ rfl))).symm
  · rintro rfl
    exact errorBody_namesTrace

/-- A response is traced exactly when the limiter refuses its request or the end of its handler
leads to a response inside of the tracing. -/
theorem responses_traced_iff (str : Json → String) (app : HttpApp) (request : HttpRequest)
    (moment : Moment) (handler : Endpoint) :
    (app.respond str request moment handler).1.Traced ↔
      app.Refuses request moment ∨
        NamesTraceAtEnd (correlationId request moment)
          (handler (correlationId request moment)) := by
  rw [HttpApp.respond_traced, HttpApp.rateLimitMiddleware_namesTrace, metricsAndAccessLog_eq,
    exceptionMiddleware_namesTrace]

section Crash

/-- A client asks for a balance under its own trace id. -/
def balanceRequest : HttpRequest :=
  ⟨"/accounts/A1/balance", some "10.0.0.1", .ofList [("X-Trace-ID", "trace-1")]⟩

def balanceMoment : Moment :=
  let uuid : Uuid := ⟨"00112233445566778899aabbccddeeff", by decide, by decide⟩
  ⟨0, uuid, uuid, none⟩

/-- The limits are the defaults of the gateway. -/
def freshApp : HttpApp := ⟨true, ⟨120, 60, fun _ => [], by decide, by decide +kernel⟩⟩

/-- The downstream connection breaks while a balance is read, and the response has no trace id. -/
theorem broken_balance_not_traced :
    ¬ (freshApp.respond (fun _ => "") balanceRequest balanceMoment
      fun _ => getBalance .raised).1.Traced := by
  rintro ⟨traceId, carried, -⟩
  have bare : (freshApp.respond (fun _ => "") balanceRequest balanceMoment
      fun _ => getBalance .raised).1.headers.get "X-Trace-ID" = none := by decide +kernel
  rw [bare] at carried
  cases carried

end Crash

end EventLedger.EventGateway
