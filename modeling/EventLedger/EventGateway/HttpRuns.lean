import EventLedger.EventGateway.Middleware
import EventLedger.EventGateway.RateLimitDecisions
import EventLedger.Library.Isolation

namespace EventLedger.EventGateway
open Library Python

/-- A request comes at its moment, and its route has a handler. -/
structure Exchange where
  request : HttpRequest
  moment : Moment
  handler : Endpoint

/-- The client of a request is known by its host. -/
def Exchange.client (exchange : Exchange) : String := rateLimitKey exchange.request

/-- The application answers one request after the other, in the order of their checks. -/
def httpApp (str : Json → String) (app : HttpApp) : Machine HttpApp Exchange where
  initial := app
  step app exchange := some (app.respond str exchange.request exchange.moment exchange.handler).2

abbrev HttpTransition := Transition HttpApp Exchange
abbrev HttpTrace := Trace HttpApp Exchange

/-- The response of a step. -/
def answered (str : Json → String) (app : HttpApp) (exchange : Exchange) : GatewayResponse :=
  (app.respond str exchange.request exchange.moment exchange.handler).1

/-- The limiter counts a request unless it is switched off or the path is exempt. -/
def HttpApp.counts (app : HttpApp) (exchange : Exchange) : Bool :=
  app.rateLimitEnabled && !isRateLimitExempt exchange.request.path

/-- The middleware of the limiter reads the request and the moment, and nothing of the handler. -/
def Exchange.limited (exchange : Exchange) : HttpRequest × Moment :=
  (exchange.request, exchange.moment)

/-- A counted request passes the limiter. -/
def HttpApp.admits (app : HttpApp) (exchange : Exchange) : Bool :=
  app.counts exchange && (app.rateLimiter.check exchange.client exchange.moment.now).1.allowed

/-- The limiter decides on a request that it counts, and it answers what it refuses. -/
structure Ruling where
  decision : Option RateLimitDecision
  refusal : Option GatewayResponse

def HttpApp.ruling (str : Json → String) (app : HttpApp) (exchange : Exchange) : Ruling where
  decision :=
    if app.counts exchange then
      some (app.rateLimiter.check exchange.client exchange.moment.now).1
    else none
  refusal :=
    if app.counts exchange && !app.admits exchange then some (answered str app exchange) else none

/-- The number of counted requests of one client that passed at the times of an interval. -/
def admittedWithin (client : String) (interval : Rat → Prop) [DecidablePred interval]
    (trace : HttpTrace) : Nat :=
  trace.countP fun transition =>
    decide (transition.action.client = client) &&
      (transition.before.admits transition.action &&
        decide (interval transition.action.moment.now))

/-- The check of a counted request. -/
def checkOf (transition : HttpTransition) : Option (Transition SlidingWindowRateLimiter Check) :=
  if transition.before.counts transition.action then
    some ⟨transition.before.rateLimiter,
      ⟨transition.action.client, transition.action.moment.now⟩, transition.after.rateLimiter⟩
  else none

/-- The checks that a run of the application makes. -/
def checksOf (trace : HttpTrace) : Trace SlidingWindowRateLimiter Check := trace.filterMap checkOf

variable {str : Json → String} {app first last next : HttpApp} {exchange : Exchange}
  {trace : HttpTrace} {limit : Int} {windowSeconds : Rat}

/-- A request changes the limiter by its check, and nothing else. -/
theorem respond_app (str : Json → String) (app : HttpApp) (exchange : Exchange) :
    (app.respond str exchange.request exchange.moment exchange.handler).2 =
      if app.counts exchange then
        { app with
          rateLimiter := (app.rateLimiter.check exchange.client exchange.moment.now).2 }
      else app := by
  have kept : (app.respond str exchange.request exchange.moment exchange.handler).2 =
      (app.rateLimitMiddleware exchange.request exchange.moment
        (metricsAndAccessLog (exceptionMiddleware str exchange.handler))
        (correlationId exchange.request exchange.moment)).2 := by
    simp only [HttpApp.respond, tracingMiddleware]
    split <;> rfl
  rw [kept, HttpApp.rateLimitMiddleware, HttpApp.counts]
  cases app.rateLimitEnabled with
  | false => rfl
  | true =>
      cases isRateLimitExempt exchange.request.path with
      | true => rfl
      | false =>
          simp only [Bool.not_true, Bool.or_false, Bool.false_eq_true, if_false, Bool.not_false,
            Bool.and_true, if_true]
          split <;> rfl

/-- The limiter refuses a counted request that it does not admit. -/
theorem refuses_iff (exchange : Exchange) : app.Refuses exchange.request exchange.moment ↔
    app.counts exchange = true ∧
      (app.rateLimiter.check exchange.client exchange.moment.now).1.allowed = false := by
  rw [HttpApp.Refuses, HttpApp.counts, Bool.and_eq_true, Bool.not_eq_true', and_assoc]
  rfl

/-- The answer to a refused request depends on the decision of the limiter and not on the handler. -/
theorem answered_of_refuses {second : HttpApp} {request : HttpRequest} {moment : Moment}
    {handler other : Endpoint} (refused : first.Refuses request moment)
    (refusedToo : second.Refuses request moment)
    (decision : (first.rateLimiter.check (rateLimitKey request) moment.now).1 =
      (second.rateLimiter.check (rateLimitKey request) moment.now).1) :
    answered str first ⟨request, moment, handler⟩ =
      answered str second ⟨request, moment, other⟩ := by
  simp only [answered, HttpApp.respond, tracingMiddleware]
  rw [HttpApp.rateLimitMiddleware_of_refuses _ _ refused,
    HttpApp.rateLimitMiddleware_of_refuses _ _ refusedToo, decision]
  cases tooManyRequests request moment
    (second.rateLimiter.check (rateLimitKey request) moment.now).1
    (correlationId request moment) <;> rfl

/-- A ruling depends on the switch and on the decision of the limiter only. -/
theorem ruling_congr {second : HttpApp} {other : Exchange}
    (alike : exchange.limited = other.limited)
    (enabled : first.rateLimitEnabled = second.rateLimitEnabled)
    (decision : (first.rateLimiter.check exchange.client exchange.moment.now).1 =
      (second.rateLimiter.check exchange.client exchange.moment.now).1) :
    first.ruling str exchange = second.ruling str other := by
  obtain ⟨request, moment, handler⟩ := exchange
  obtain ⟨_, _, another⟩ := other
  obtain ⟨rfl, rfl⟩ := Prod.mk.inj alike
  have counts : first.counts ⟨request, moment, handler⟩ =
      second.counts ⟨request, moment, another⟩ := by
    rw [HttpApp.counts, HttpApp.counts, enabled]
  have admits : first.admits ⟨request, moment, handler⟩ =
      second.admits ⟨request, moment, another⟩ := by
    rw [HttpApp.admits, HttpApp.admits, counts]
    exact congrArg (_ && RateLimitDecision.allowed ·) decision
  simp only [Exchange.client] at decision
  simp only [HttpApp.ruling, counts, admits, Exchange.client, decision, Ruling.mk.injEq, true_and]
  split
  · next refused =>
      obtain ⟨counted, full⟩ := Bool.and_eq_true_iff.mp refused
      have full : (second.rateLimiter.check (rateLimitKey request) moment.now).1.allowed =
          false := by
        rwa [HttpApp.admits, counted, Bool.true_and, Bool.not_eq_true'] at full
      have refusedToo : second.Refuses request moment :=
        (refuses_iff ⟨request, moment, another⟩).mpr ⟨counted, full⟩
      have refused : first.Refuses request moment :=
        (refuses_iff ⟨request, moment, handler⟩).mpr
          ⟨counts.trans counted, (congrArg RateLimitDecision.allowed decision).trans full⟩
      exact congrArg some (answered_of_refuses refused refusedToo decision)
  · rfl

/-- What one client sees of the application. -/
structure ClientView where
  rateLimitEnabled : Bool
  limit : Int
  windowSeconds : Rat
  requests : List Rat

def HttpApp.clientView (app : HttpApp) (client : String) : ClientView :=
  ⟨app.rateLimitEnabled, app.rateLimiter.limit, app.rateLimiter.windowSeconds,
    app.rateLimiter.requests client⟩

/-- A client sees its own requests only. -/
theorem httpApp_isolated (str : Json → String) (app : HttpApp) :
    (httpApp str app).Isolated Exchange.client HttpApp.clientView (HttpApp.ruling str) where
  own {first second next exchange} same taken := by
    obtain ⟨enabled, limit, windowSeconds, queue⟩ := ClientView.mk.inj same
    obtain rfl := Option.some.inj taken
    obtain ⟨decision, after⟩ :=
      SlidingWindowRateLimiter.check_congr limit windowSeconds queue exchange.moment.now
    refine ⟨ruling_congr rfl enabled decision, _, rfl, ?_⟩
    rw [respond_app, respond_app]
    have counts : first.counts exchange = second.counts exchange := by
      rw [HttpApp.counts, HttpApp.counts, enabled]
    obtain ⟨firstTimes, firstSet⟩ := first.rateLimiter.check_setRequests exchange.client
      exchange.moment.now
    obtain ⟨secondTimes, secondSet⟩ := second.rateLimiter.check_setRequests exchange.client
      exchange.moment.now
    rw [counts]
    split
    · rw [firstSet, secondSet] at after
      rw [HttpApp.clientView, HttpApp.clientView, ClientView.mk.injEq]
      rw [firstSet, secondSet]
      exact ⟨enabled, limit, windowSeconds, after⟩
    · exact same
  other {app next exchange client} taken different := by
    obtain rfl := Option.some.inj taken
    rw [respond_app]
    split
    · obtain ⟨times, set⟩ := app.rateLimiter.check_setRequests exchange.client exchange.moment.now
      rw [set, HttpApp.clientView, HttpApp.clientView]
      rw [SlidingWindowRateLimiter.setRequests_of_ne _ (Ne.symm different)]
      rfl
    · rfl

/-- A handler changes neither the limiter nor its rulings. -/
theorem exists_runs_of_limited {own : List Exchange}
    (runs : (httpApp str app).Runs first last trace)
    (alike : own.map Exchange.limited = trace.map (Exchange.limited ∘ Transition.action)) :
    ∃ other, (httpApp str app).Runs first last other ∧ other.map Transition.action = own ∧
      other.map (fun transition => transition.before.ruling str transition.action) =
        trace.map fun transition => transition.before.ruling str transition.action := by
  induction runs generalizing own with
  | refl =>
      obtain rfl := List.map_eq_nil_iff.mp alike
      exact ⟨[], .refl, rfl, rfl⟩
  | @step state next trace exchange earlier taken ih =>
      rw [List.map_append] at alike
      obtain ⟨before, latest, rfl, past, present⟩ := List.map_eq_append_iff.mp alike
      obtain ⟨another, rfl, same⟩ := List.map_eq_singleton_iff.mp present
      obtain ⟨other, runs, actions, rulings⟩ := ih past
      obtain rfl := Option.some.inj taken
      have same : another.limited = exchange.limited := same
      have stepped : (state.respond str another.request another.moment another.handler).2 =
          (state.respond str exchange.request exchange.moment exchange.handler).2 := by
        obtain ⟨request, moment⟩ := Prod.mk.inj same
        rw [respond_app, respond_app, HttpApp.counts, HttpApp.counts, Exchange.client,
          Exchange.client, request, moment]
      refine ⟨_, runs.step another (congrArg some stepped), ?_, ?_⟩
      · rw [List.map_append, actions]
        rfl
      · rw [List.map_append, List.map_append, rulings]
        exact congrArg (_ ++ [·]) (ruling_congr same rfl rfl)

/-- The limiter rules on every client as if it were alone: neither the requests of the others nor the
handlers of its own change a decision or a refusal. -/
theorem clients_limited_alone (runs : (httpApp str app).Runs first last trace) (client : String)
    (own : List Exchange) (alike : own.map Exchange.limited =
      (trace.labelled Exchange.client client).map (Exchange.limited ∘ Transition.action)) :
    ∃ lastAlone alone, (httpApp str app).Runs first lastAlone alone ∧
      alone.map Transition.action = own ∧
      alone.map (fun transition => transition.before.ruling str transition.action) =
        (trace.labelled Exchange.client client).map
          fun transition => transition.before.ruling str transition.action := by
  obtain ⟨lastAlone, alone, runs, actions, rulings, _⟩ :=
    (httpApp_isolated str app).alone runs client
  have limited : own.map Exchange.limited =
      alone.map (Exchange.limited ∘ Transition.action) := by
    rw [alike, ← List.map_map, ← actions, List.map_map]
  obtain ⟨other, runs, acted, same⟩ := exists_runs_of_limited runs limited
  exact ⟨lastAlone, other, runs, acted, same.trans rulings⟩

section OnePerTen

/-- One request of a client in ten seconds is admitted. -/
def strictApp : HttpApp := ⟨true, onePerTen⟩

/-- A client reads a balance while the Account Service is away. -/
def balanceExchange (clientHost : String) (now : Rat) : Exchange :=
  ⟨{ balanceRequest with clientHost := some clientHost }, { balanceMoment with now },
    fun _ => getBalance .raised⟩

def HttpApp.taken (app : HttpApp) (exchange : Exchange) : HttpTransition :=
  ⟨app, exchange, (app.respond (fun _ => "") exchange.request exchange.moment exchange.handler).2⟩

def admittedExchange : HttpTransition := strictApp.taken (balanceExchange "10.0.0.1" 0)
def otherExchange : HttpTransition := admittedExchange.after.taken (balanceExchange "10.0.0.2" 2)
def refusedExchange : HttpTransition := otherExchange.after.taken (balanceExchange "10.0.0.1" 4)

theorem strictApp_runs : (httpApp (fun _ => "") strictApp).Runs strictApp refusedExchange.after
    ([admittedExchange, otherExchange] ++ refusedExchange :: []) :=
  .step _ (.step _ (.step _ .refl rfl) rfl) rfl

/-- The same requests may reach a handler that returns. -/
def answeredExchange (clientHost : String) (now : Rat) : Exchange :=
  { balanceExchange clientHost now with handler := fun _ => .ok ⟨200, .empty .., some (.int 1)⟩ }

/-- The first client is refused as if the second had never asked and its own handlers had returned. -/
theorem clients_limited_alone_first :
    ∃ lastAlone alone, (httpApp (fun _ => "") strictApp).Runs strictApp lastAlone alone ∧
      alone.map Transition.action = [answeredExchange "10.0.0.1" 0, answeredExchange "10.0.0.1" 4] ∧
      alone.map (fun transition =>
        (transition.before.ruling (fun _ => "") transition.action).refusal.map
          GatewayResponse.statusCode) = [none, some 429] := by
  have own : Trace.labelled Exchange.client ([admittedExchange, otherExchange] ++
      refusedExchange :: []) "10.0.0.1" = [admittedExchange, refusedExchange] := rfl
  obtain ⟨lastAlone, alone, runs, actions, rulings⟩ :=
    clients_limited_alone strictApp_runs "10.0.0.1"
      [answeredExchange "10.0.0.1" 0, answeredExchange "10.0.0.1" 4] (by rw [own]; rfl)
  rw [own] at rulings
  refine ⟨lastAlone, alone, runs, actions, ?_⟩
  have codes := congrArg
    (List.map fun ruling => ruling.refusal.map GatewayResponse.statusCode) rulings
  rw [List.map_map] at codes
  exact codes.trans (by decide +kernel)

end OnePerTen

section Limits

theorem checksOf_append (earlier later : HttpTrace) :
    checksOf (earlier ++ later) = checksOf earlier ++ checksOf later := List.filterMap_append

/-- A request that is not counted makes no check. -/
theorem checksOf_of_not_counts {transition : HttpTransition}
    (free : transition.before.counts transition.action = false) : checksOf [transition] = [] := by
  simp [checksOf, checkOf, free]

theorem checksOf_of_counts {transition : HttpTransition}
    (counted : transition.before.counts transition.action = true) :
    checksOf [transition] = [⟨transition.before.rateLimiter,
      ⟨transition.action.client, transition.action.moment.now⟩,
      transition.after.rateLimiter⟩] := by
  simp [checksOf, checkOf, counted]

/-- A check belongs to a request of the same client at the same time. -/
theorem exists_of_mem_checksOf {check : Transition SlidingWindowRateLimiter Check}
    (member : check ∈ checksOf trace) :
    ∃ transition ∈ trace, check.action = ⟨transition.action.client, transition.action.moment.now⟩ := by
  obtain ⟨transition, found, same⟩ := List.mem_filterMap.mp member
  rw [checkOf] at same
  split at same
  · obtain rfl := Option.some.inj same
    exact ⟨transition, found, rfl⟩
  · cases same

/-- The limiter runs through the checks of the application. -/
theorem checks_run (limiter : SlidingWindowRateLimiter)
    (runs : (httpApp str app).Runs first last trace) :
    (rateLimiter limiter).Runs first.rateLimiter last.rateLimiter (checksOf trace) := by
  induction runs with
  | refl => exact .refl
  | @step before after trace exchange earlier taken ih =>
      obtain rfl := Option.some.inj taken
      rw [checksOf_append]
      cases counted : before.counts exchange with
      | false =>
          rw [checksOf_of_not_counts counted, List.append_nil, respond_app, counted]
          exact ih
      | true =>
          rw [checksOf_of_counts counted, respond_app, counted]
          exact ih.step _ rfl

/-- The checks of requests in order are in order. -/
theorem checksOf_ordered
    (ordered : trace.Pairwise fun earlier later => earlier.action.moment.now ≤ later.action.moment.now) :
    Nondecreasing (checksOf trace) := by
  induction trace with
  | nil => exact List.Pairwise.nil
  | cons transition rest ih =>
      obtain ⟨before, ordered⟩ := List.pairwise_cons.mp ordered
      rw [← List.singleton_append, checksOf_append]
      cases counted : transition.before.counts transition.action with
      | false =>
          rw [checksOf_of_not_counts counted]
          exact ih ordered
      | true =>
          rw [checksOf_of_counts counted]
          refine List.pairwise_cons.mpr ⟨fun check member => ?_, ih ordered⟩
          obtain ⟨later, found, same⟩ := exists_of_mem_checksOf member
          rw [same]
          exact before later found

/-- The admitted requests are the allowed checks. -/
theorem admittedWithin_eq (client : String) (interval : Rat → Prop) [DecidablePred interval]
    (trace : HttpTrace) :
    admittedWithin client interval trace = allowedWithin client interval (checksOf trace) := by
  induction trace with
  | nil => rfl
  | cons transition rest ih =>
      rw [← List.singleton_append, checksOf_append, allowedWithin_append, ← ih, admittedWithin,
        List.countP_append, ← admittedWithin, ← admittedWithin]
      congr 1
      cases counted : transition.before.counts transition.action with
      | false =>
          rw [checksOf_of_not_counts counted]
          simp [admittedWithin, HttpApp.admits, counted, allowedWithin, allowedTimes]
      | true =>
          rw [checksOf_of_counts counted, admittedWithin, List.countP_singleton, HttpApp.admits,
            counted, allowedWithin, allowedTimes]
          by_cases own : transition.action.client = client <;>
            by_cases allowed : (transition.before.rateLimiter.check transition.action.client
              transition.action.moment.now).1.allowed <;>
            simp_all [decided]

theorem tooManyRequests_statusCode (request : HttpRequest) (moment : Moment)
    (decision : RateLimitDecision) (context : String) :
    ∃ response, tooManyRequests request moment decision context = .ok response ∧
      response.statusCode = 429 := by
  unfold tooManyRequests
  exact ⟨_, if_pos (by simp), rfl⟩

/-- A refused request is answered at once that it comes too early. -/
theorem statusCode_of_refuses (refused : app.Refuses exchange.request exchange.moment) :
    (answered str app exchange).statusCode = 429 := by
  obtain ⟨response, rendered, status⟩ := tooManyRequests_statusCode exchange.request
    exchange.moment (app.rateLimiter.check (rateLimitKey exchange.request) exchange.moment.now).1
    (correlationId exchange.request exchange.moment)
  simp only [answered, HttpApp.respond, tracingMiddleware,
    HttpApp.rateLimitMiddleware_of_refuses _ _ refused, rendered, Except.map]
  exact status

/-- No window of time admits more than limit requests of one client, a counted request is refused
exactly when its window is full, and then it is answered with status 429. -/
theorem clients_rate_limited
    (created : SlidingWindowRateLimiter.create limit windowSeconds = some app.rateLimiter)
    (runs : (httpApp str app).Runs app last trace)
    (ordered : trace.Pairwise fun earlier later =>
      earlier.action.moment.now ≤ later.action.moment.now) :
    (∀ client start,
      (admittedWithin client (fun time => start < time ∧ time ≤ start + windowSeconds) trace : Int)
        ≤ limit ∧
      (admittedWithin client (fun time => start ≤ time ∧ time < start + windowSeconds) trace : Int)
        ≤ limit) ∧
    ∀ earlier transition later, trace = earlier ++ transition :: later →
      (transition.before.Refuses transition.action.request transition.action.moment ↔
        transition.before.counts transition.action = true ∧
          (admittedWithin transition.action.client (fun time =>
            transition.action.moment.now - windowSeconds < time ∧
              time ≤ transition.action.moment.now) earlier : Int) = limit) ∧
      (transition.before.Refuses transition.action.request transition.action.moment →
        (answered str transition.before transition.action).statusCode = 429) := by
  have checks := checks_run app.rateLimiter runs
  have inOrder := checksOf_ordered ordered
  refine ⟨fun client start => ⟨?_, ?_⟩, fun earlier transition later split => ⟨?_, statusCode_of_refuses⟩⟩
  · rw [admittedWithin_eq]
    refine allowedWithin_le created checks inOrder client fun first second inside within => ?_
    linarith [inside.1, within.2]
  · rw [admittedWithin_eq]
    refine allowedWithin_le created checks inOrder client fun first second inside within => ?_
    linarith [inside.1, within.2]
  · subst split
    obtain ⟨past, _, latest⟩ := List.pairwise_append.mp ordered
    have held := keepsHistory created (checks_run app.rateLimiter runs.split.1)
      (checksOf_ordered past)
    have before (check : Transition SlidingWindowRateLimiter Check)
        (member : check ∈ checksOf earlier) : check.action.now ≤ transition.action.moment.now := by
      obtain ⟨source, found, same⟩ := exists_of_mem_checksOf member
      rw [same]
      exact latest source found transition (List.mem_cons_self ..)
    obtain ⟨rfl, rfl, _⟩ := SlidingWindowRateLimiter.create_spec created
    have follows : FollowsHistory app.rateLimiter.limit app.rateLimiter.windowSeconds
        (checksOf earlier) ⟨transition.before.rateLimiter,
          ⟨transition.action.client, transition.action.moment.now⟩, transition.after.rateLimiter⟩ :=
      held.followsHistory before
    rw [refuses_iff, admittedWithin_eq]
    refine and_congr_right fun counted => ?_
    constructor
    · exact fun refused => follows.refused refused
    · intro full
      rw [← Bool.not_eq_true]
      intro allowed
      have room := follows.allowed.mp allowed
      rw [inWindow, full] at room
      exact lt_irrefl _ room

/-- The second request of the example comes four seconds after the first, and the window is full. -/
theorem clients_rate_limited_refused :
    (admittedWithin "10.0.0.1" (fun time => 4 - 10 < time ∧ time ≤ 4)
      [admittedExchange, otherExchange] : Int) = 1 ∧
    (answered (fun _ => "") refusedExchange.before refusedExchange.action).statusCode = 429 := by
  have ordered : ([admittedExchange, otherExchange] ++ refusedExchange :: []).Pairwise
      fun earlier later => earlier.action.moment.now ≤ later.action.moment.now := by
    decide +kernel
  have decision := (clients_rate_limited onePerTen_created strictApp_runs ordered).2 _ _ _ rfl
  have refused : refusedExchange.before.Refuses refusedExchange.action.request
      refusedExchange.action.moment := ⟨by decide +kernel, by decide +kernel, by decide +kernel⟩
  exact ⟨(decision.1.mp refused).2, decision.2 refused⟩

end Limits

end EventLedger.EventGateway
