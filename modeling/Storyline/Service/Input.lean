import Storyline.Creation.Create
import Storyline.Http
import Storyline.Json.Text
import Storyline.Json.Value
import Storyline.Store.Query
import Storyline.Text

/-!
# What requests bring

The parts of a request that are read before anything is asked of the tables, and the answers to
requests that are not served.
-/

/-! ## Refusals

What a request is answered when it cannot be served.

* `Refusal`: a failure behind the address of the request; `Refusal.answer` is its status, code and
  text. Failures of the service itself are answered alike and tell nothing about themselves;
* `Rejection`: a request that cannot be read;
* `Denial`: either; `Denial.response`.
-/

namespace Storyline

/-- A failure to serve a request that has been understood. -/
inductive Refusal
  | error (e : Error)
  | creation (e : CreationError)
  | failure (f : Failure)
  | badRequest (message : String)
  deriving DecidableEq, Repr

/-- The status, the code and the text of a refusal. -/
structure RefusalAnswer where
  status : Nat
  code : String
  message : String
  deriving DecidableEq, Repr

/-- The answer to all failures of the service itself. -/
def RefusalAnswer.internal : RefusalAnswer := ⟨500, "INTERNAL_ERROR", "An internal error occurred"⟩

/-- The answer to an error. -/
def Error.answer (e : Error) : RefusalAnswer :=
  match e with
  | .unknownId entity id => ⟨404, "NOT_FOUND", s!"{entity} with id {id} not found"⟩
  | .unknownSlug entity slug => ⟨404, "NOT_FOUND", s!"{entity} with slug '{slug}' not found"⟩
  | .slugTaken _ _ => ⟨409, "CONFLICT", e.message⟩
  | .nonconforming text => ⟨422, "INVALID_STORY_PLAN", text⟩
  | .invalid text => ⟨400, "VALIDATION_ERROR", text⟩
  | .unauthorized text => ⟨401, "UNAUTHORIZED", text⟩
  | .unreadableSuffix _ _ | .storeFailed _ _ | .internal _ => .internal

/-- The answer to a failure of the tables. A value that exists already is a conflict only where
the constraint is one of the service's own. -/
def Failure.answer (f : Failure) : RefusalAnswer :=
  match f with
  | .noRow => ⟨404, "NOT_FOUND", "Resource not found"⟩
  | .closed | .other _ => .internal
  | .refused _ constraint _ =>
    let name := constraint.getD "unknown"
    if f.isDuplicate && "uq_".toList.isPrefixOf name.toList then
      ⟨409, "CONFLICT", s!"Duplicate value violates unique constraint: {name}"⟩
    else .internal

namespace Refusal

/-- The refusal in words. -/
def message : Refusal → String
  | error e => e.message
  | creation e => e.message
  | failure f => s!"Database error: " ++ f.message
  | badRequest text => s!"Bad request: {text}"

/-- The answer to a refusal; a failed creation is answered by its cause. -/
def answer : Refusal → RefusalAnswer
  | error e => e.answer
  | creation e => e.cause.answer
  | failure f => f.answer
  | badRequest text => ⟨400, "BAD_REQUEST", text⟩

end Refusal

/-- The body of an answer to a refusal. -/
def RefusalAnswer.toJson (a : RefusalAnswer) : Json :=
  .obj [("code", .str a.code), ("error", .str a.message)]

/-- A request that cannot be read. -/
inductive Rejection
  /-- A part of the path is no text. -/
  | undecodable (parameter : String)
  /-- A part of the path is no number. -/
  | noNumber (text : String)
  /-- The body is not declared as JSON. -/
  | mediaType
  /-- The body has more bytes than are read. -/
  | tooLarge
  /-- The body is no JSON. -/
  | malformed
  /-- The body is JSON of another shape. -/
  | misshapen
  deriving DecidableEq, Repr

namespace Rejection

/-- The status of a rejection. -/
def status : Rejection → Nat
  | undecodable _ | noNumber _ | malformed => 400
  | tooLarge => 413
  | mediaType => 415
  | misshapen => 422

/-- The rejection in words. For a body that cannot be read, the place and the kind of the fault are
left out, which follow after a colon. -/
def message : Rejection → String
  | undecodable parameter => s!"Invalid URL: Invalid UTF-8 in `{parameter}`"
  | noNumber text => s!"Invalid URL: Cannot parse `{text}` to a `i64`"
  | tooLarge => "Failed to buffer the request body: length limit exceeded"
  | mediaType => "Expected request with `Content-Type: application/json`"
  | malformed => "Failed to parse the request body as JSON"
  | misshapen => "Failed to deserialize the JSON body into the target type"

end Rejection

/-- A request that is not served. -/
inductive Denial
  | refused (r : Refusal)
  | rejected (r : Rejection)
  deriving DecidableEq, Repr

/-- The response to a request that is not served. -/
def Denial.response : Denial → Http.Response
  | refused r => { status := r.answer.status, body := .json r.answer.toJson }
  | rejected r => { status := r.status, body := .text r.message }

/-! ## Callers

A request names its caller by the number in a header.

* `callerHeader`, `caller`: the caller of a request, or why there is none.
-/

/-- The header that names the caller. -/
def callerHeader : String := "x-user-id"

/-- The caller that the headers of a request name: a positive number in the first of the headers
for it, with blanks around it or not. A value that is not visible counts as missing. -/
def caller (headers : List Http.Header) : Except Error Int :=
  match (Http.first? headers callerHeader).bind Http.visible? with
  | none => .error (.unauthorized s!"Missing {callerHeader} header")
  | some text =>
    match Numeral.readInt64? (Text.trim text) with
    | some id =>
      if 0 < id then .ok id else .error (.unauthorized s!"Invalid {callerHeader} header")
    | none => .error (.unauthorized s!"Invalid {callerHeader} header")

/-! ## Input of requests

What is read from a request before anything is asked of the tables.

* `callerOf`, `slugOf`, `idOf`, `bodyOf`: the caller, the parts of the path, the body.
-/

/-- An error as a denial. -/
def Error.denial (e : Error) : Denial := .refused (.error e)

/-- The caller of a request. -/
def callerOf (r : Http.Request) : Except Denial Int := (caller r.headers).mapError Error.denial

/-- The slug that a part of the path stands for. -/
def slugOf (segment : List Char) : Except Denial String :=
  match Http.decodeSegment? segment with
  | some slug => .ok slug
  | none => .error (.rejected (.undecodable "slug"))

/-- The number that a part of the path stands for. -/
def idOf (segment : List Char) : Except Denial Int :=
  match Http.decodeSegment? segment with
  | none => .error (.rejected (.undecodable "id"))
  | some text =>
    match Numeral.readInt64? text.toList with
    | some id => .ok id
    | none => .error (.rejected (.noNumber text))

/-- A fault in a body as a denial. -/
def Json.Fault.denial : Json.Fault → Denial
  | .shape => .rejected .misshapen
  | .surplus | .syntactic | .truncated => .rejected .malformed

/-- The most bytes of a body. -/
def maxBodyBytes : Nat := 2 * 1024 * 1024

/-- The body of a request, which has to be declared as JSON and is measured before it is read. -/
def bodyOf {α : Type} (reader : Json.Reader α) (r : Http.Request) : Except Denial α :=
  if (Http.first? r.headers "content-type").any Http.namesJson then
    if r.body.utf8ByteSize > maxBodyBytes then .error (.rejected .tooLarge)
    else (Json.decode reader r.body).mapError Json.Fault.denial
  else .error (.rejected .mediaType)

end Storyline
