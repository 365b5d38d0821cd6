import Mathlib.Data.List.Basic

namespace EventLedger.Library

/-- A responder answers each request from its state. -/
structure Responder (State Request Response : Type) where
  initial : State
  serve : State → Request → State × Response

namespace Responder
variable {State Other Request Response κ View : Type}

/-- The responder serves one request after the other. -/
def respond (responder : Responder State Request Response) :
    State → List Request → State × List Response
  | state, [] => (state, [])
  | state, request :: rest =>
      let served := responder.serve state request
      let others := responder.respond served.1 rest
      (others.1, served.2 :: others.2)

/-- A responder refines another one when related states answer alike and stay related. -/
structure Refines (concrete : Responder State Request Response)
    (abstract : Responder Other Request Response) (related : State → Other → Prop) : Prop where
  initially : related concrete.initial abstract.initial
  serves : ∀ {state : State} {other : Other}, related state other → ∀ request,
    (concrete.serve state request).2 = (abstract.serve other request).2 ∧
      related (concrete.serve state request).1 (abstract.serve other request).1

/-- A refinement gives the same responses to every list of requests. -/
theorem Refines.respond {concrete : Responder State Request Response}
    {abstract : Responder Other Request Response} {related : State → Other → Prop}
    (refines : concrete.Refines abstract related) (requests : List Request) {state : State}
    {other : Other} (same : related state other) :
    (concrete.respond state requests).2 = (abstract.respond other requests).2 ∧
      related (concrete.respond state requests).1 (abstract.respond other requests).1 := by
  induction requests generalizing state other with
  | nil => exact ⟨rfl, same⟩
  | cons request rest ih =>
      obtain ⟨answered, later⟩ := refines.serves same request
      obtain ⟨others, last⟩ := ih later
      refine ⟨?_, last⟩
      rw [Responder.respond, Responder.respond, answered, others]

/-- A responder separates labels when a request reads and writes only the view of its own label. -/
structure Separates (responder : Responder State Request Response) (allowed : Request → Prop)
    (label : Request → κ) (view : State → κ → View) : Prop where
  own : ∀ {first second : State} {request : Request}, allowed request →
    view first (label request) = view second (label request) →
      (responder.serve first request).2 = (responder.serve second request).2 ∧
        view (responder.serve first request).1 (label request) =
          view (responder.serve second request).1 (label request)
  other : ∀ (state : State) {request : Request} {k : κ}, allowed request → label request ≠ k →
    view (responder.serve state request).1 k = view state k

/-- The requests of one label get the responses that they get without all other requests. -/
theorem Separates.alone [DecidableEq κ] {responder : Responder State Request Response}
    {allowed : Request → Prop} {label : Request → κ} {view : State → κ → View}
    (separates : responder.Separates allowed label view) (k : κ) (requests : List Request)
    (all : ∀ request ∈ requests, allowed request) {first second : State}
    (same : view first k = view second k) :
    (requests.zip (responder.respond first requests).2).filter (fun exchange =>
        decide (label exchange.1 = k)) =
      (requests.filter fun request => decide (label request = k)).zip
        (responder.respond second (requests.filter fun request => decide (label request = k))).2 := by
  induction requests generalizing first second with
  | nil => rfl
  | cons request rest ih =>
      have admitted := all request List.mem_cons_self
      have others := fun next member => all next (List.mem_cons_of_mem request member)
      rw [respond, List.zip_cons_cons]
      by_cases own : label request = k
      · obtain ⟨answered, kept⟩ := separates.own admitted (own ▸ same)
        simp only [List.filter_cons, own, decide_true, if_true, respond, List.zip_cons_cons]
        rw [answered, ih others (own ▸ kept)]
      · simp only [List.filter_cons, own, decide_false, Bool.false_eq_true, if_false]
        exact ih others ((separates.other first admitted own).trans same)

end Responder
end EventLedger.Library
