import EventLedger.AccountService.Service
import EventLedger.EventGateway.DownstreamErrors
import EventLedger.EventGateway.Middleware

namespace EventLedger.Delivery
open Library Python EventGateway

/-- The exceptions of `apply` pass through its route. -/
def exceptionOf : AccountService.Answer → Option Exception
  | .result _ => none
  | .httpException status code message => some (.httpException status
      (.obj [("code", .str code), ("message", .str message)]) (.empty ..))
  | .unhandled => some .other
  | .databaseError => some .sqlAlchemyError

/-- The Account Service has the handlers and the tracing of the Gateway, without a limiter, and its
tracing is inside of the access log. -/
def accountRespond (str : Json → String) (request : HttpRequest) (moment : Moment)
    (handler : Endpoint) : GatewayResponse :=
  let correlationId := correlationId request moment
  let traced : Endpoint := fun _ =>
    (exceptionMiddleware str handler correlationId).map fun response =>
      { response with headers := traceHeaders correlationId moment.otelTraceId response.headers }
  match metricsAndAccessLog traced noTraceId with
  | .ok response => response
  | .error _ => genericError noTraceId

/-- The client reads back the JSON that the Account Service has written. -/
structure Reads (response : Response) (reply : GatewayResponse) : Prop where
  status : response.statusCode = reply.statusCode
  labelled : response.contentType.startsWith "application/json"
  json : response.json = reply.content

/-- The Gateway sends the error of the Account Service on under one trace id, which only the last
handler leaves out of it. -/
structure Relays (traceId : String) (reply sent : GatewayResponse) : Prop where
  status : sent.statusCode = reply.statusCode
  body : ∃ context code message retryable details,
    reply.content = some (errorBody context code message retryable details) ∧
      sent.content = some (errorBody traceId code message retryable details) ∧
      (context = traceId ∨ reply = genericError noTraceId)

section Bodies
variable {str : Json → String} {traceId context : String} {code message details : Json}
  {retryable : Bool} {status : Nat} {headers : Headers} {response : GatewayResponse}

/-- This object is the error member of a body. -/
def errorMember (context : String) (code message : Json) (retryable : Bool) (details : Json) :
    Json :=
  .obj ([("code", code), ("message", message), ("traceId", .str context),
    ("retryable", .bool retryable)] ++
      match details with
      | .null => []
      | details => [("details", details)])

/-- An HTTP exception with the error of a body writes this error again, under its own trace id. -/
theorem httpError_errorMember :
    httpError str status (errorMember context code message retryable details) headers traceId =
      jsonResponse status headers (errorBody traceId code message retryable details) := by
  cases details with
  | null | bool | int | float | str | arr | obj => rfl

/-- A rejection with an error body raises the error of the body. -/
theorem rejected_errorBody :
    Answer.rejected status (errorBody context code message retryable details) =
      .httpException status (errorMember context code message retryable details) := by
  cases details with
  | null | bool | int | float | str | arr | obj => rfl

/-- A rendered response has an error body that can be written. -/
theorem jsonResponse_eq_ok (rendered : jsonResponse status headers
    (errorBody traceId code message retryable details) = .ok response) :
    response.content = some (errorBody traceId code message retryable details) ∧
      (errorBody traceId code message retryable details).writable = true := by
  unfold jsonResponse at rendered
  split at rendered
  · next written =>
      obtain rfl := Except.ok.inj rendered
      exact ⟨rfl, written⟩
  · cases rendered

/-- Every handled exception leads to an error body that can be written. -/
theorem content_of_handled {callNext : Endpoint} {exception : Exception}
    (raised : callNext traceId = .error exception)
    (handled : exceptionMiddleware str callNext traceId = .ok response) :
    ∃ code message retryable details,
      response.content = some (errorBody traceId code message retryable details) ∧
        (errorBody traceId code message retryable details).writable = true := by
  rw [exceptionMiddleware, raised] at handled
  cases exception with
  | requestValidationError errors => exact ⟨_, _, _, _, jsonResponse_eq_ok handled⟩
  | httpException status detail headers =>
      cases detail with
      | null | bool | int | float | str | arr | obj => exact ⟨_, _, _, _, jsonResponse_eq_ok handled⟩
  | sqlAlchemyError => exact ⟨_, _, _, _, jsonResponse_eq_ok handled⟩
  | other => cases handled

/-- The Account Service answers every exception with an error body, under the trace id of its
request or by its last handler. -/
theorem content_of_accountRespond {request : HttpRequest} {moment : Moment} {exception : Exception}
    (own : correlationId request moment = traceId)
    (replied : accountRespond str request moment (fun _ => .error exception) = response) :
    ∃ context code message retryable details,
      response.content = some (errorBody context code message retryable details) ∧
        (errorBody context code message retryable details).writable = true ∧
        (context = traceId ∨ response = genericError noTraceId) := by
  subst own
  simp only [accountRespond, metricsAndAccessLog_eq] at replied
  cases handled : exceptionMiddleware str (fun _ => .error exception)
      (correlationId request moment) with
  | error escaped =>
      simp only [handled, Except.map] at replied
      exact ⟨_, _, _, _, _, by rw [← replied]; rfl, errorBody_writable.mpr ⟨rfl, rfl, rfl⟩,
        .inr replied.symm⟩
  | ok inner =>
      simp only [handled, Except.map] at replied
      obtain ⟨code, message, retryable, details, content, written⟩ := content_of_handled rfl handled
      exact ⟨_, code, message, retryable, details, by rw [← replied]; exact content, written, .inl rfl⟩

/-- The Gateway renders the error of a body under the trace id of its own request. -/
theorem respond_errorMember (headers : Headers) {app : HttpApp} {request : HttpRequest} {moment : Moment}
    (own : correlationId request moment = traceId) (admitted : ¬ app.Refuses request moment)
    (written : (errorBody context code message retryable details).writable = true) :
    ∃ sent, (app.respond str request moment fun _ => .error (.httpException status
        (errorMember context code message retryable details) headers)).1 = sent ∧
      sent.statusCode = status ∧
      sent.content = some (errorBody traceId code message retryable details) := by
  subst own
  have rewritten : (errorBody (correlationId request moment) code message retryable
      details).writable = true :=
    errorBody_writable.mpr (errorBody_writable.mp written)
  obtain ⟨after, sent⟩ := HttpApp.respond_of_not_refuses str (fun _ => .error (.httpException status
    (errorMember context code message retryable details) headers)) admitted
  refine ⟨_, sent, ?_⟩
  simp [exceptionMiddleware, httpError_errorMember, jsonResponse, rewritten]

end Bodies

section Runs
variable {storage : Storage} {settings : Settings} {first process last : Process} {i : Nat}
  {submission : Submission} {event : Event} {response : Response} {now : Rat} {answer : Answer}

/-- A rejecting submit goes on to reject until it has answered. -/
theorem rejecting_of_leads {record : AuditRecord}
    (reached : (gateway storage settings).Reachable process)
    (rejecting : process.Rejecting i record answer) (kind : record.action = .eventProcessingFailed)
    (leads : (EventGateway.uninterrupted storage settings).Leads process last) :
    last.Rejecting i record answer :=
  (leads.persistsWithin (fun state => state.Rejecting i record answer)
    (fun _ _ _ before rejecting running taken =>
      rejecting.step (consistent_of_reachable before) kind running taken) reached rejecting).2

/-- A valid trace id that a request carries is the trace id of its context. -/
theorem correlationId_of_sent {request : HttpRequest} {traceId : String} (moment : Moment)
    (valid : traceMatches traceId) (sent : request.headers.get "x-trace-id" = some traceId) :
    correlationId request moment = traceId := by
  rw [correlationId, sent, normalizeTraceId_of_matches valid]

section Answered
variable {context : String} {code message details : Json} {retryable : Bool}

/-- A submit that reads an error body is about to raise its error. -/
theorem rejecting_of_errorBody
    (reached : (gateway storage settings).Reachable first)
    (calling : first.submits i = .calling submission event)
    (error : 400 ≤ response.statusCode)
    (read : response.detail = some (errorBody context code message retryable details))
    (resumed : first.step storage settings (.resume i (.response response) now) = some process) :
    process.Rejecting i (submission.record .eventProcessingFailed .failure
      (some (.downstreamStatus response.statusCode))) (.httpException response.statusCode
        (errorMember context code message retryable details)) := by
  obtain ⟨rejected, failed, none, others⟩ := resume_error reached calling error resumed
  simp only [Submission.rejected, read, rejected_errorBody] at rejected
  exact ⟨failed, others, .inl ⟨rejected, none⟩⟩

/-- A submit that has read an error body ends in an HTTP exception with its error. -/
theorem answer_of_errorBody
    (reached : (gateway storage settings).Reachable first)
    (calling : first.submits i = .calling submission event)
    (error : 400 ≤ response.statusCode)
    (read : response.detail = some (errorBody context code message retryable details))
    (resumed : first.step storage settings (.resume i (.response response) now) = some process)
    (leads : (EventGateway.uninterrupted storage settings).Leads process last)
    (answered : last.submits i = .answered answer) :
    answer = .httpException response.statusCode
      (errorMember context code message retryable details) := by
  have rejecting := rejecting_of_errorBody reached calling error read resumed
  have reachable : (gateway storage settings).Reachable process :=
    reached.step (.resume i (.response response) now) resumed
  rcases (rejecting_of_leads reachable rejecting rfl leads).own with ⟨recording, _⟩ | ⟨same, _⟩
  · rw [recording] at answered
    cases answered
  · exact (Submit.answered.inj (same.symm.trans answered)).symm

/-- A submit that reads an error body can go on to its answer. -/
theorem exists_answered (now : Rat)
    (reached : (gateway storage settings).Reachable first)
    (calling : first.submits i = .calling submission event)
    (error : 400 ≤ response.statusCode)
    (read : response.detail = some (errorBody context code message retryable details)) :
    ∃ process last answer,
      first.step storage settings (.resume i (.response response) now) = some process ∧
        (EventGateway.uninterrupted storage settings).Leads process last ∧ last.submits i = .answered answer := by
  obtain ⟨process, resumed⟩ := Process.exists_resume (.response response) now calling
  have rejecting := rejecting_of_errorBody reached calling error read resumed
  rcases rejecting.progresses storage settings with answered | ⟨last, taken, answered⟩
  · exact ⟨process, process, _, resumed, .refl, answered⟩
  · exact ⟨process, last, _, resumed,
      .single ⟨.advance i, Machine.step_restrict.mpr ⟨rfl, taken⟩⟩, answered⟩

end Answered

/-- The client returns a response whose status it does not retry. -/
theorem outcome_of_lasting {breaker : CircuitBreaker} {attempt : Nat} {time : Rat}
    {outcome : CallOutcome} (lasting : ClientRequest.transient response.statusCode = false)
    (ended : (ClientRequest.attemptEnds settings breaker attempt time (.response response)).2 =
      .finished outcome) : outcome = .response response := by
  rw [ClientRequest.attemptEnds, lasting] at ended
  exact (ClientRequest.finished.inj ended).symm

/-- Every error of the Account Service that the client does not retry reaches the client of the submit
with its status, its code, its message, its mark and its details, under the trace id of the submit. -/
theorem errors_relayed (defaultDetail : DefaultDetail) {str : Json → String} {app : HttpApp}
    {request downstream : HttpRequest} {moment other : Moment} {raised : Exception}
    {reply : GatewayResponse} {breaker : CircuitBreaker} {attempt : Nat} {time : Rat}
    {outcome : CallOutcome}
    (reached : (gateway storage settings).Reachable first)
    (calling : first.submits i = .calling submission event)
    (own : correlationId request moment = submission.traceId)
    (named : downstream.headers.get "x-trace-id" = some submission.traceId)
    (replied : accountRespond str downstream other (fun _ => .error raised) = reply)
    (error : 400 ≤ reply.statusCode) (lasting : ClientRequest.transient reply.statusCode = false)
    (reads : Reads response reply)
    (ended : (ClientRequest.attemptEnds settings breaker attempt time (.response response)).2 =
      .finished outcome)
    (resumed : first.step storage settings (.resume i outcome now) = some process)
    (leads : (EventGateway.uninterrupted storage settings).Leads process last)
    (answered : last.submits i = .answered answer) (admitted : ¬ app.Refuses request moment) :
    ∃ exception, (answer.constructed defaultDetail).exception = some exception ∧
      Relays submission.traceId reply
        (app.respond str request moment fun _ => .error exception).1 := by
  obtain rfl := outcome_of_lasting (reads.status ▸ lasting) ended
  -- The trace id of the submit is valid, so the Account Service keeps it.
  have kept : correlationId downstream other = submission.traceId :=
    correlationId_of_sent other (own ▸ traceMatches_normalizeTraceId _ moment.correlation) named
  obtain ⟨context, code, message, retryable, details, content, written, source⟩ :=
    content_of_accountRespond kept replied
  have read : response.detail = some (errorBody context code message retryable details) := by
    rw [Response.detail, if_pos reads.labelled, reads.json, content]
  obtain rfl := answer_of_errorBody reached calling (reads.status ▸ error) read resumed leads answered
  obtain ⟨sent, responded, status, body⟩ := respond_errorMember (.empty ..) own admitted written
  exact ⟨_, rfl, responded ▸ ⟨status.trans reads.status, context, code, message, retryable, details,
    content, body, source⟩⟩

end Runs

section Refused

/-- The name of a header is read without its case. -/
theorem get_traceId (value : String) :
    (MultiDict.ofList [("X-Trace-ID", value)] : Headers).get "x-trace-id" = some value := by
  have same : "x-trace-id".toLower = "X-Trace-ID".toLower := by
    have lower (name : String) : name.toLower = name.map Char.toLower := rfl
    apply String.toList_inj.mp
    rw [lower, lower, String.toList_map, String.toList_map]
    decide
  simp only [MultiDict.get, MultiDict.ofList, List.map_cons, List.map_nil, same,
    List.lookup_cons_self]

/-- A client submits an event under its own trace id. -/
def eventRequest : HttpRequest :=
  ⟨"/events", some "10.0.0.1", .ofList [("X-Trace-ID", "trace-1")]⟩

/-- The Gateway sends the transaction under the same trace id. -/
def transactionRequest : HttpRequest :=
  ⟨"/accounts/A1/transactions", none, .ofList [("X-Trace-ID", "trace-1")]⟩

/-- The account has another currency. -/
def currencyBody : Json := errorBody "trace-1" (.str "CURRENCY_MISMATCH")
  (.str "event currency does not match account currency") false .null

def refusal : GatewayResponse :=
  accountRespond (fun _ => "") transactionRequest balanceMoment fun _ => .error (.httpException 409
    (.obj [("code", .str "CURRENCY_MISMATCH"),
      ("message", .str "event currency does not match account currency")]) (.empty ..))

def refusalRead : Response := ⟨409, "application/json", some "", refusal.content⟩

/-- A submit of the event awaits the answer to its call. -/
def awaitingRefusal : List EventGateway.Action :=
  [.arrive 0 ⟨creditX.event, "trace-1"⟩, .advance 0, .advance 0, .advance 0]

theorem errors_relayed_currency : exceptionOf AccountService.currencyMismatch =
      some (.httpException 409 (.obj [("code", .str "CURRENCY_MISMATCH"),
        ("message", .str "event currency does not match account currency")]) (.empty ..)) ∧
    ∃ last answer exception, (last : Process).submits 0 = .answered answer ∧
      (answer.constructed conflictDetail).exception = some exception ∧ Relays "trace-1" refusal
        (freshApp.respond (fun _ => "") eventRequest balanceMoment fun _ => .error exception).1 := by
  refine ⟨rfl, ?_⟩
  have own : correlationId eventRequest balanceMoment = "trace-1" :=
    correlationId_of_sent balanceMoment (by decide +kernel) (get_traceId "trace-1")
  have kept : correlationId transactionRequest balanceMoment = "trace-1" :=
    correlationId_of_sent balanceMoment (by decide +kernel) (get_traceId "trace-1")
  have labelled : "application/json".startsWith "application/json" := by decide +kernel
  have written : currencyBody.writable = true := errorBody_writable.mpr ⟨rfl, rfl, rfl⟩
  have refused : refusal =
      ⟨409, traceHeaders "trace-1" balanceMoment.otelTraceId (.empty ..), some currencyBody⟩ := by
    have written : jsonResponse 409 (.empty ..) currencyBody =
        .ok ⟨409, .empty .., some currencyBody⟩ := if_pos written
    have rendered : httpError (fun _ => "") 409 (.obj [("code", .str "CURRENCY_MISMATCH"),
        ("message", .str "event currency does not match account currency")]) (.empty ..) "trace-1" =
        .ok ⟨409, .empty .., some currencyBody⟩ := written
    simp only [refusal, accountRespond, metricsAndAccessLog_eq, kept, exceptionMiddleware, rendered]
    rfl
  have read : refusalRead.detail = some currencyBody := by
    rw [Response.detail, refusalRead, if_pos labelled, refused]
  obtain ⟨first, ran, calling⟩ := Option.map_eq_some_iff.mp
    (show ((gateway .wallClock .default).run (gateway .wallClock .default).initial
      awaitingRefusal).map (fun state => state.submits 0) =
        some (.calling ⟨creditX.event, "trace-1"⟩
          (Submission.row .wallClock ⟨creditX.event, "trace-1"⟩)) by rfl)
  have reached := Machine.reachable_of_run _ .initial ran
  obtain ⟨process, last, answer, resumed, leads, answered⟩ :=
    exists_answered 0 reached calling (by decide) read
  have ended : (ClientRequest.attemptEnds .default .closed 0 0 (.response refusalRead)).2 =
      .finished (.response refusalRead) := rfl
  have admitted : ¬ freshApp.Refuses eventRequest balanceMoment := by
    rintro ⟨_, _, refused⟩
    exact absurd refused (by decide +kernel)
  obtain ⟨exception, raised, relays⟩ := errors_relayed conflictDetail
    reached calling own (get_traceId "trace-1") (rfl : _ = refusal) (by rw [refused]; decide)
    (by rw [refused]; rfl) ⟨by rw [refused]; rfl, labelled, rfl⟩ ended resumed leads answered admitted
  exact ⟨last, answer, exception, answered, raised, relays⟩

end Refused
end EventLedger.Delivery
