import Storyline.Http
import Storyline.Service.Handlers

/-!
# Places

The addresses of the service, and what can be asked at each.

* `Place`, `Place.ofTarget?`: the place that the target of a request names. Its parts are not
  decoded yet, for the caller is asked for first;
* `Place.action?`: what the service does for a request at a place;
* `Place.allow`: the methods of a place.
-/

namespace Storyline

/-- An address of the service. -/
inductive Place
  | health
  | loglines
  | logline (slug : List Char)
  | loglineSheets (slug : List Char)
  | plans
  | plan (slug : List Char)
  | planIterations (slug : List Char)
  | sheets
  | sheet (id : List Char)
  deriving DecidableEq, Repr

namespace Place

/-- The place under the root of the service. A part at the end of a path is not empty. -/
def ofParts? : List (List Char) → Option Place
  | [c] =>
    if c = "loglines".toList then some loglines
    else if c = "story-plans".toList then some plans
    else if c = "beats-sheets".toList then some sheets
    else none
  | [c, part] =>
    if part.isEmpty then none
    else if c = "loglines".toList then some (logline part)
    else if c = "story-plans".toList then some (plan part)
    else if c = "beats-sheets".toList then some (sheet part)
    else none
  | [c, part, d] =>
    if c = "loglines".toList ∧ d = "beats-sheets".toList then some (loglineSheets part)
    else if c = "story-plans".toList ∧ d = "iterations".toList then some (planIterations part)
    else none
  | _ => none

/-- The place that a target names. -/
def ofTarget? (target : String) : Option Place :=
  match Http.segments target with
  | [] :: a :: parts =>
    match parts with
    | [] => if a = "health".toList then some health else none
    | b :: parts => if a = "api".toList ∧ b = "v1".toList then ofParts? parts else none
  | _ => none

/-- The methods of a place. -/
def allow : Place → String
  | health | logline _ | loglineSheets _ | planIterations _ => "GET,HEAD"
  | loglines | plans => "GET,HEAD,POST"
  | plan _ | sheet _ => "GET,HEAD,PUT"
  | sheets => "POST"

/-- Whether the service is well; it always answers. -/
def reportHealth : Action Reply :=
  ExceptT.mk <| (query .probe).bind fun (answer : Except Failure Unit) =>
    .done (.ok ⟨200, .obj [("status", .str (if answer.isOk then "ok" else "degraded")),
      ("version", .str "0.1.0"), ("db_healthy", .bool answer.isOk)]⟩)

/-- What is read at a place. -/
def read? (r : Http.Request) : Place → Option (Action Reply)
  | health => some reportHealth
  | loglines => some (Loglines.list r)
  | logline slug => some (Loglines.get slug r)
  | loglineSheets slug => some (Loglines.sheets slug r)
  | plans => some StoryPlans.list
  | plan slug => some (StoryPlans.get slug)
  | planIterations slug => some (StoryPlans.iterations slug)
  | sheets => none
  | sheet id => some (BeatsSheets.get id r)

/-- What the service does for a request at a place. A request for the head does what the one for
the whole does. -/
def action? (policy : RetryPolicy) (r : Http.Request) (place : Place) : Option (Action Reply) :=
  match r.method, place with
  | .get, place | .head, place => place.read? r
  | .post, loglines => some (Loglines.create policy r)
  | .post, plans => some (StoryPlans.create policy r)
  | .post, sheets => some (BeatsSheets.create r)
  | .put, plan slug => some (StoryPlans.revise slug r)
  | .put, sheet id => some (BeatsSheets.renew id r)
  | _, _ => none

end Place

/-! ## The service

* `Service`: what the service is set to;
* `serve`: the program that answers a request, however long it takes;
* `TimeLimit`, `serveWithin`: the same for a request whose time may be up before.

A handler that breaks down is not modelled: those here end with a response for all answers of the
tables.
-/

open Http

/-- What the service is set to. -/
structure Service where
  policy : RetryPolicy := {}
  /-- The origins whose pages may use the service. -/
  origins : Origins := []
  /-- The mark of a response to a request that carries none. -/
  freshMark : Octets := []

/-- The response of an action. -/
def respond (a : Action Reply) : Prog TableStore Response :=
  a.run.bind fun
    | .ok reply => .done { status := reply.status, body := .json reply.body }
    | .error denial => .done denial.response

/-- The type of a body. -/
def contentHeaders : Body → List Header
  | .none => []
  | .text _ => [.ofText "content-type" "text/plain; charset=utf-8"]
  | .json _ => [.ofText "content-type" "application/json"]

/-- The header that marks a request and its response. -/
def markHeader : String := "x-request-id"

namespace Service

/-- The methods of the place that a request names, if it names one. -/
def allowHeaders (r : Request) : List Header :=
  match Place.ofTarget? r.target with
  | none => []
  | some place => [.ofText "allow" place.allow]

/-- The response to a request, without the headers that all responses carry. -/
def answer (s : Service) (r : Request) : Prog TableStore Response :=
  match Place.ofTarget? r.target with
  | none => .done { status := 404 }
  | some place =>
    match place.action? s.policy r with
    | none => .done { status := 405, headers := allowHeaders r }
    | some action => respond action

/-- The headers that all responses carry: the type of the body, the mark of the request, and what
is said about origins. -/
def dress (s : Service) (r : Request) (response : Response) : Response :=
  response.withHeaders <| contentHeaders response.body ++
    [⟨markHeader, (first? r.headers markHeader).getD s.freshMark⟩] ++
    Origins.sharingHeaders s.origins r.headers

/-- The answer to a question in advance, which is the same for all paths. -/
def preflight (s : Service) (r : Request) : Response :=
  { status := 200
    headers := Origins.sharingHeaders s.origins r.headers ++ Origins.preflightHeaders ++
      allowHeaders r }

/-- A response as it is sent: the answer to a request for the head has no body. -/
def sent (r : Request) (response : Response) : Response :=
  if r.method = .head then { response with body := .none } else response

end Service

/-- The answer of the service to a request, which has all the time that it needs. -/
def serve (s : Service) (r : Request) : Prog TableStore Response :=
  if r.method = .options then .done (s.preflight r)
  else (s.answer r).bind fun response => .done (Service.sent r (s.dress r response))

end Storyline
