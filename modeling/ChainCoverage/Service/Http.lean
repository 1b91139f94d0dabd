import ChainCoverage.Service.Basic
import ChainCoverage.Service.MediaType
import ChainCoverage.Service.Query

/-!
# The service over HTTP

A request is routed by its path, which must match exactly, and its method.  The target
may name a scheme and an authority in front of the path; they do not count.  A `HEAD`
request is answered like a `GET` request, but without its content.  An `OPTIONS` request
is answered whatever its path.

A request that does not fit its route is rejected before the service sees it, with a
content that is not JSON.  What the service itself answers is JSON.

Main definitions:

- `HttpRequest`, `HttpResponse` and `Content`.
- `CoverageAnswer`: the coverage of a network with its counts, as it is answered.
- `Route`: the known paths with their methods.
- `Service.respond`: the response to a request, and the service afterwards.
-/

namespace ChainCoverage

/-- A request with its method and target as they were sent. -/
structure HttpRequest where
  method : String
  target : String
  contentType : Option String
  body : String
deriving DecidableEq

/-- What a request for coverage is answered with. -/
structure CoverageAnswer where
  network : String
  coverage : Coverage
  indexedCount : UInt64
  percentIndexed : Float

/-- The answer with the coverage of a network and the counts that go with it. -/
def CoverageAnswer.ofCoverage (network : String) (c : Coverage) : CoverageAnswer :=
  ⟨network, c, c.indexedCount, c.percentIndexed⟩

/-- The content of a response. -/
inductive Content where
  /-- Nothing, or text that is not JSON. -/
  | plain
  | coverage (answer : CoverageAnswer)
  | tasks (tasks : List WorkerTask)
  | report (report : AssignmentReport)
  | counters (counters : Counters)
  | error (message : String)
  /-- The description of the service, which is JSON. -/
  | description
  /-- JSON that is left out because only the head of the response is asked for. -/
  | withheld

namespace Content

/-- Whether the content is JSON. -/
def isJson : Content → Bool
  | plain => false
  | _ => true

/-- The content of a response to a request for its head only. -/
def headOnly : Content → Content
  | plain => plain
  | _ => withheld

end Content

/-- A status and a content. -/
structure HttpResponse where
  status : Nat
  content : Content

namespace HttpResponse

/-- A successful response. -/
def ok (content : Content) : HttpResponse := ⟨200, content⟩

/-- A rejection by the router. -/
def rejection (status : Nat) : HttpResponse := ⟨status, .plain⟩

/-- The response to a request that the service refused or has no answer to. -/
def failure (reason : ServiceError) : HttpResponse :=
  match reason with
  | .unavailable _ => ⟨503, .error reason.message⟩
  | _ => ⟨400, .error reason.message⟩

end HttpResponse

/-! ## Routing -/

/-- What a request asks for. -/
inductive Route where
  | coverage
  | plan
  | start
  | counters
  | description
deriving DecidableEq

namespace Route

/-- The route with a path. -/
def ofPath? (path : String) : Option Route :=
  if path = "/coverage" then some coverage
  else if path = "/dispatch/plan" then some plan
  else if path = "/dispatch" then some start
  else if path = "/metrics" then some counters
  else if path = "/api-docs/openapi.json" then some description
  else none

/-- Whether a route is reached by a method. -/
def accepts (route : Route) (method : String) : Bool :=
  match route with
  | start => method == "POST"
  | _ => method == "GET" || method == "HEAD"

end Route

namespace HttpRequest

/-- The characters of a scheme. -/
def isSchemeChar (c : Char) : Bool :=
  c.isAlphanum || c == '+' || c == '-' || c == '.'

/-- Whether a character ends the authority in front of it. -/
def endsAuthority (c : Char) : Bool :=
  c == '/' || c == '?' || c == '#'

/-- The part of a target behind its scheme and its authority, if it has them. -/
def behindAuthority (target : List Char) : List Char :=
  match target.dropWhile isSchemeChar with
  | ':' :: '/' :: '/' :: rest => rest.dropWhile fun c => !endsAuthority c
  | _ => target

/-- The target without its authority and its fragment. -/
def location (r : HttpRequest) : List Char :=
  (behindAuthority r.target.toList).takeWhile (· ≠ '#')

/-- The path of the target. -/
def path (r : HttpRequest) : String :=
  String.ofList (r.location.takeWhile (· ≠ '?'))

/-- The pairs of the target's query. -/
def query (r : HttpRequest) : Query :=
  Query.parse (String.ofList ((r.location.dropWhile (· ≠ '?')).drop 1))

/-- Whether the body is said to be JSON. -/
def hasJson (r : HttpRequest) : Bool :=
  match r.contentType.bind MediaType.parse? with
  | some type => type.isJson
  | none => false

/-- The largest number of bytes that a body may have. -/
def bodyLimit : Nat := 2097152

/-- The network and the number of buckets that a query asks for. -/
def coverageOrder? (q : Query) : Option (String × Option UInt32) := do
  let network ← q.required "network" some
  let buckets ← q.optional "buckets" Unsigned.halfWord?
  return (network, buckets)

/-- The order that a query stands for. -/
def planOrder? (q : Query) : Option PlanOrder := do
  let first ← q.required "from" Unsigned.word?
  let last ← q.required "to" Unsigned.word?
  let workers ← q.required "workers" Unsigned.halfWord?
  let force ← q.optional "force_mode" Query.readBool
  let level ← q.optional "log_level" some
  return ⟨first, last, workers, force.getD false, level⟩

end HttpRequest

namespace Service

/-! ## Responses -/

/-- Responds to a request for coverage. -/
def respondCoverage (s : Service) (r : HttpRequest) : HttpResponse × Service :=
  match HttpRequest.coverageOrder? r.query with
  | none => (.rejection 400, s)
  | some (network, buckets) =>
    match s.coverage network buckets with
    | (.error reason, next) => (.failure reason, next)
    | (.ok coverage, next) => (.ok (.coverage (.ofCoverage network coverage)), next)

/-- Responds to a request for a plan. -/
def respondPlan (s : Service) (r : HttpRequest) : HttpResponse :=
  match HttpRequest.planOrder? r.query with
  | none => .rejection 400
  | some order =>
    match tasksFor s.settings order with
    | .error reason => .failure reason
    | .ok tasks => .ok (.tasks tasks)

/-- Responds to a request to start tasks.  The type of the body is looked at before its size, and
that before the body itself. -/
def respondStart (s : Service) (r : HttpRequest) : HttpResponse × Service :=
  if !r.hasJson then
    (.rejection 415, s)
  else if HttpRequest.bodyLimit < r.body.utf8ByteSize then
    (.rejection 413, s)
  else
    match decode (α := StartOrder) r.body with
    | .error .malformed => (.rejection 400, s)
    | .error .mismatch => (.rejection 422, s)
    | .ok order =>
      match s.startTasks order with
      | (.error reason, next) => (.failure reason, next)
      | (.ok report, next) => (.ok (.report report), next)

/-- Responds to a request on a route. -/
def respondOn (s : Service) (r : HttpRequest) : Route → HttpResponse × Service
  | .coverage => s.respondCoverage r
  | .plan => (s.respondPlan r, s)
  | .start => s.respondStart r
  | .counters => (.ok (.counters s.counters), s)
  | .description => (.ok .description, s)

/-- Leaves out the content when only the head of the response is asked for. -/
def trim (method : String) (response : HttpResponse) : HttpResponse :=
  if method = "HEAD" then { response with content := response.content.headOnly }
  else response

/-- Responds to a request. -/
def respond (s : Service) (r : HttpRequest) : HttpResponse × Service :=
  if r.method = "OPTIONS" then
    (.ok .plain, s)
  else
    match Route.ofPath? r.path with
    | none => (.rejection 404, s)
    | some route =>
      if route.accepts r.method then
        let (response, next) := s.respondOn r route
        (trim r.method response, next)
      else
        (.rejection 405, s)

/-- Responds to requests in order. -/
def respondAll (s : Service) : List HttpRequest → List HttpResponse × Service
  | [] => ([], s)
  | r :: rest =>
    let (response, next) := s.respond r
    let (responses, final) := next.respondAll rest
    (response :: responses, final)

end Service
end ChainCoverage
