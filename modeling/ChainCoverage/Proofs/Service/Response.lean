import ChainCoverage.Service.Http
import ChainCoverage.Proofs.Ledger.Key

/-!
# How requests reach their routes

Each route has one path and one method that asks it for its whole answer.  A request that
asks a route that way gets the answer of that route; some routes can also be asked for the
head of it.  What the service refuses or cannot answer comes with the status of the reason
and its wording.

Main definitions:

- `HttpRequest.Reaches`: a request that is answered by a route.
- `HttpRequest.Asks`: a request that asks a route for its whole answer.
- `ServiceError.status`: the status that a reason comes with.

Main results:

- `Service.respond_of_reaches` and `Service.respond_of_not_reaches`: what the router does.
- `Service.respond_of_asks`: a request for the whole answer of a route gets it.
- `Service.checkName_name` and `Service.checkName_of_not_isName`: the names that are refused.
- `HttpResponse.failure_eq`: the response to what is refused or not answered.
-/

namespace ChainCoverage

/-! ## Routes -/

namespace Route

/-- The path of a route. -/
def path : Route → String
  | coverage => "/coverage"
  | plan => "/dispatch/plan"
  | start => "/dispatch"
  | counters => "/metrics"
  | description => "/api-docs/openapi.json"

/-- The method that asks a route for its whole answer. -/
def method : Route → String
  | start => "POST"
  | _ => "GET"

@[simp]
theorem ofPath?_path (route : Route) : ofPath? route.path = some route := by
  cases route <;> rfl

/-- A path leads to one route. -/
theorem ofPath?_eq_some_iff {path : String} {route : Route} :
    ofPath? path = some route ↔ path = route.path := by
  constructor
  · intro hpath
    unfold ofPath? at hpath
    grind [Route.path]
  · rintro rfl
    exact ofPath?_path route

@[simp]
theorem accepts_method (route : Route) : route.accepts route.method = true := by
  cases route <;> rfl

/-- The method is not the one that asks for the head of an answer. -/
theorem method_ne_head (route : Route) : route.method ≠ "HEAD" := by
  cases route <;> decide

end Route

/-- Whether a request asks a route for its whole answer. -/
structure HttpRequest.Asks (r : HttpRequest) (route : Route) : Prop where
  method : r.method = route.method
  path : r.path = route.path

instance (r : HttpRequest) (route : Route) : Decidable (r.Asks route) :=
  decidable_of_iff (r.method = route.method ∧ r.path = route.path)
    ⟨fun h => ⟨h.1, h.2⟩, fun h => ⟨h.method, h.path⟩⟩

/-- Whether a request is answered by a route. -/
structure HttpRequest.Reaches (r : HttpRequest) (route : Route) : Prop where
  path : r.path = route.path
  accepts : route.accepts r.method = true

instance (r : HttpRequest) (route : Route) : Decidable (r.Reaches route) :=
  decidable_of_iff (r.path = route.path ∧ route.accepts r.method = true)
    ⟨fun h => ⟨h.1, h.2⟩, fun h => ⟨h.path, h.accepts⟩⟩

theorem HttpRequest.Asks.reaches {r : HttpRequest} {route : Route} (hasks : r.Asks route) :
    r.Reaches route :=
  ⟨hasks.path, hasks.method ▸ route.accepts_method⟩

/-- A request is answered by one route at most. -/
theorem HttpRequest.Reaches.unique {r : HttpRequest} {route other : Route}
    (hroute : r.Reaches route) (hother : r.Reaches other) : route = other := by
  have hpath := Route.ofPath?_eq_some_iff.2 hroute.path
  rw [Route.ofPath?_eq_some_iff.2 hother.path] at hpath
  exact (Option.some.inj hpath).symm

namespace Service

variable (s : Service) {r : HttpRequest}

/-- A request that reaches a route gets the route's answer, or its head. -/
theorem respond_of_reaches {route : Route} (hreaches : r.Reaches route) :
    s.respond r = (trim r.method (s.respondOn r route).1, (s.respondOn r route).2) := by
  have hmethod : r.method ≠ "OPTIONS" := by
    intro hoptions
    have haccepts := hreaches.accepts
    rw [hoptions] at haccepts
    cases route <;> exact absurd haccepts (by decide)
  rw [respond, if_neg hmethod, Route.ofPath?_eq_some_iff.2 hreaches.path]
  dsimp only
  rw [if_pos hreaches.accepts]

/-- Any other request is answered by the router, without any content. -/
theorem respond_of_not_reaches (hreaches : ∀ route, ¬ r.Reaches route) :
    ∃ status, s.respond r = (⟨status, .plain⟩, s) := by
  rw [respond]
  split
  · exact ⟨_, rfl⟩
  · split
    · exact ⟨_, rfl⟩
    · rename_i route hpath
      have haccepts : ¬ route.accepts r.method = true :=
        fun haccepts => hreaches route ⟨Route.ofPath?_eq_some_iff.1 hpath, haccepts⟩
      rw [if_neg haccepts]
      exact ⟨_, rfl⟩

/-- A request is answered by the route that it asks for its whole answer. -/
theorem respond_of_asks {route : Route} (hasks : r.Asks route) :
    s.respond r = s.respondOn r route := by
  rw [s.respond_of_reaches hasks.reaches, hasks.method, trim, if_neg route.method_ne_head]

end Service

/-! ## Names -/

namespace Service

/-- The name of a network passes the check. -/
theorem checkName_name (n : Network) : checkName n.name = .ok () := by
  rw [checkName, Network.ofName_name]

/-- Any other name is refused. -/
theorem checkName_of_not_isName {name : String} (hname : Network.isName name = false) :
    ∃ reason, checkName name = .error (.network reason) := by
  obtain ⟨reason, hreason⟩ := Network.ofName_of_not_isName hname
  exact ⟨reason, by rw [checkName, hreason]⟩

end Service

/-! ## Statuses -/

@[simp]
theorem HttpResponse.status_ok (content : Content) : (ok content).status = 200 :=
  rfl

/-- The status that a reason comes with. -/
def ServiceError.status : ServiceError → Nat
  | unavailable _ => 503
  | _ => 400

/-- A failure has the status of its reason, and says what the reason is. -/
theorem HttpResponse.failure_eq (reason : ServiceError) :
    failure reason = ⟨reason.status, .error reason.message⟩ := by
  cases reason <;> rfl

end ChainCoverage
