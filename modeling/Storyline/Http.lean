import Storyline.Json.Value
import Storyline.Text

/-!
# HTTP

Messages, the paths that they are addressed to, and what their headers say.
-/

/-! ## Requests and responses

* `Octets`: the value of a header, which need not be text; `Octets.visible?`;
* `Method`, `Header`, `Request`, `Response`;
* `first?`: the first value of a header.
-/

namespace Storyline.Http

/-- The bytes of a header's value. -/
abbrev Octets := List UInt8

/-- The bytes of a text. -/
def octets (s : String) : Octets := s.toUTF8.data.toList

/-- A byte of visible ASCII, a space or a tab. -/
def isVisible (b : UInt8) : Bool := (0x20 ≤ b && b < 0x7F) || b == 0x09

/-- The bytes as text, if all of them are visible. -/
def visible? (value : Octets) : Option (List Char) :=
  if value.all isVisible then some (value.map fun b => Char.ofNat b.toNat) else none

/-- What a request asks for. -/
inductive Method
  | get
  | head
  | post
  | put
  | options
  | other (name : String)
  deriving DecidableEq, Repr

/-- The method of a name. -/
def Method.ofName : String → Method
  | "GET" => .get
  | "HEAD" => .head
  | "POST" => .post
  | "PUT" => .put
  | "OPTIONS" => .options
  | name => .other name

/-- A header with its name in lowercase. -/
structure Header where
  name : String
  value : Octets
  deriving DecidableEq, Repr

/-- A header whose value is a text. Names of headers are not case-sensitive. -/
def Header.ofText (name value : String) : Header := ⟨name.map Char.toLower, octets value⟩

/-- The first value of a header. -/
def first? (headers : List Header) (name : String) : Option Octets :=
  (headers.find? (·.name = name)).map (·.value)

/-- A request: its target as it is sent, a path or a whole address, and a body that is a text.
Bodies whose bytes are not UTF-8 are left out. -/
structure Request where
  method : Method
  target : String
  headers : List Header := []
  body : String := ""
  deriving DecidableEq, Repr

/-- The body of a response. -/
inductive Body
  | none
  | text (s : String)
  | json (value : Json)
  deriving Inhabited, Repr

/-- A response. -/
structure Response where
  status : Nat
  headers : List Header := []
  body : Body := .none
  deriving Inhabited, Repr

/-- The response with further headers. -/
def Response.withHeaders (r : Response) (headers : List Header) : Response :=
  { r with headers := r.headers ++ headers }

/-! ## Paths

The target of a request is a path with or without a query, or a whole address: a scheme, the two
slashes, an authority, and then the path.

* `afterScheme?`, `ofTarget`: the path of a target, without the query;
* `segments`: the parts of the path between its slashes;
* `decodePercent`, `decodeSegment?`: the text that a part stands for.
-/

/-- A character of a scheme. -/
def isSchemeChar (c : Char) : Bool := c.isAlphanum || "+-.~".toList.contains c

/-- What follows the scheme of a whole address. A target that starts with a slash has none. -/
def afterScheme? (target : List Char) : Option (List Char) :=
  match target.dropWhile isSchemeChar with
  | ':' :: '/' :: '/' :: rest => some rest
  | _ => none

/-- A character that ends an authority. -/
def endsAuthority (c : Char) : Bool := c == '/' || c == '?' || c == '#'

/-- The path of a target. What follows a question mark or a number sign is no part of it. -/
def ofTarget (target : List Char) : List Char :=
  let path :=
    match afterScheme? target with
    | some rest => rest.dropWhile fun c => !endsAuthority c
    | none => target
  path.takeWhile fun c => c != '?' && c != '#'

/-- The parts of a target's path, as they are sent. -/
def segments (target : String) : List (List Char) := Text.pieces '/' (ofTarget target.toList)

example : segments "/loglines?x=/" = [[], "loglines".toList] := by decide
example : segments "HTTP://h:80/loglines" = [[], "loglines".toList] := by decide
example : segments "/a://h/b" = [[], "a:".toList, [], ['h'], ['b']] := by decide

/-- The value of a digit of base 16. -/
def hexDigit? (c : Char) : Option UInt8 :=
  if c.isDigit then some (UInt8.ofNat (c.toNat - '0'.toNat))
  else if 'a' ≤ c && c ≤ 'f' then some (UInt8.ofNat (c.toNat - 'a'.toNat + 10))
  else if 'A' ≤ c && c ≤ 'F' then some (UInt8.ofNat (c.toNat - 'A'.toNat + 10))
  else none

/-- The bytes of a part. A percent sign with two digits of base 16 stands for one byte; any other
is taken as it is. -/
def decodePercent : List Char → Octets
  | '%' :: a :: b :: rest =>
    match hexDigit? a, hexDigit? b with
    | some high, some low => (16 * high + low) :: decodePercent rest
    | _, _ => octets "%" ++ decodePercent (a :: b :: rest)
  | c :: rest => octets c.toString ++ decodePercent rest
  | [] => []

/-- The text of a part, if its bytes are text. -/
def decodeSegment? (segment : List Char) : Option String :=
  String.fromUTF8? ⟨(decodePercent segment).toArray⟩

/-! ## Media types

The value of a `content-type` header: a type, a subtype that may end in a suffix, and parameters.

* `MediaType.ofChars?`: the grammar;
* `MediaType.isJson`: `application/json`, or any subtype of `application` with the suffix `json`.
-/

/-- A character of a token. -/
def isTokenChar (c : Char) : Bool := c.isAlphanum || "!#$%&'*+-.^_`|~".toList.contains c

/-- A character inside a quoted value. -/
def isQuotedChar (c : Char) : Bool := 0x1F < c.toNat && c.toNat != 0x7F

/-- A type and a subtype, in lowercase. -/
structure MediaType where
  type : List Char
  subtype : List Char
  deriving DecidableEq, Repr

/-- Where the reading of parameters stands. -/
inductive ParameterState
  /-- In front of a parameter, or of the end. -/
  | start
  /-- Within a name. -/
  | name
  /-- Behind the equals sign. -/
  | value
  /-- Within a value. -/
  | token
  /-- Behind an opening quote; the next character is taken as it is. -/
  | opened
  /-- Within quotes. -/
  | quotes
  /-- Behind a closing quote. -/
  | closed
  deriving DecidableEq

/-- Whether parameters are well formed, read on from a state. -/
def parametersFrom : ParameterState → List Char → Bool
  | .start, [] => true
  | .start, c :: cs =>
    if c = ' ' then parametersFrom .start cs else isTokenChar c && parametersFrom .name cs
  | .name, [] => false
  | .name, c :: cs =>
    if c = '=' then parametersFrom .value cs else isTokenChar c && parametersFrom .name cs
  | .value, [] => true
  | .value, c :: cs =>
    if c = '"' then parametersFrom .opened cs else isTokenChar c && parametersFrom .token cs
  | .token, [] => true
  | .token, c :: cs =>
    if c = ';' then parametersFrom .start cs else isTokenChar c && parametersFrom .token cs
  | .opened, [] => false
  | .opened, c :: cs => isQuotedChar c && parametersFrom .quotes cs
  | .quotes, [] => false
  | .quotes, c :: cs =>
    if c = '"' then parametersFrom .closed cs else isQuotedChar c && parametersFrom .quotes cs
  | .closed, [] => true
  | .closed, c :: cs =>
    if c = ';' then parametersFrom .start cs else c == ' ' && parametersFrom .closed cs

/-- The media type that a text spells. -/
def MediaType.ofChars? (cs : List Char) : Option MediaType :=
  let type := cs.takeWhile isTokenChar
  match cs.dropWhile isTokenChar with
  | '/' :: rest =>
    let subtype := rest.takeWhile isTokenChar
    let wellFormed :=
      match rest.dropWhile isTokenChar with
      | [] => true
      | ';' :: parameters => !subtype.isEmpty && parametersFrom .start parameters
      | _ => false
    if !type.isEmpty && wellFormed then
      some ⟨type.map Char.toLower, subtype.map Char.toLower⟩
    else none
  | _ => none

/-- What stands in front of the last plus of a subtype, and the suffix behind it. A plus at the
head is no mark of a suffix. -/
def MediaType.suffixed (subtype : List Char) : List Char × Option (List Char) :=
  let suffix := (subtype.reverse.takeWhile (· != '+')).reverse
  let stem := subtype.take (subtype.length - suffix.length - 1)
  if suffix.length = subtype.length || stem.isEmpty then (subtype, none) else (stem, some suffix)

/-- A type for JSON. -/
def MediaType.isJson (m : MediaType) : Bool :=
  let (stem, suffix) := MediaType.suffixed m.subtype
  m.type == "application".toList && (stem == "json".toList || suffix == some "json".toList)

/-- The value of a header names a type for JSON. -/
def namesJson (value : Octets) : Bool :=
  ((visible? value).bind MediaType.ofChars?).any MediaType.isJson

example : namesJson (octets "Application/Problem+JSON; charset=utf-8") = true := by decide +kernel
example : namesJson (octets "application/json, text/plain") = false := by decide +kernel

/-! ## Origins

Browsers ask from which origins a page may use the service.

* `Origins.ofTexts`: the origins that are allowed, from a setting;
* `Origins.sharingHeaders`: the headers that every response carries about this;
* `Origins.preflightHeaders`: those of the answer to a question in advance.
-/

/-- The origins that may use the service. -/
abbrev Origins := List Octets

namespace Origins

/-- A setting that cannot be used. -/
inductive Fault
  /-- An origin cannot stand in a header. -/
  | unsendable (origin : String)
  /-- An origin stands for all of them. -/
  | wildcard
  deriving DecidableEq, Repr

/-- The fault in words. -/
def Fault.message : Fault → String
  | .unsendable origin => s!"Invalid CORS origin '{origin}': failed to parse header value"
  | .wildcard => "Wildcard origin (`*`) cannot be passed to `AllowOrigin::list`. " ++
      "Use `AllowOrigin::any()` instead"

/-- A byte that may stand in a header. -/
def isSendable (b : UInt8) : Bool := (0x20 ≤ b && b != 0x7F) || b == 0x09

/-- The allowed origins. All of them are asked whether they can be sent before any is refused as a
wildcard. -/
def ofTexts (origins : List String) : Except Fault Origins :=
  match origins.find? fun origin => !(octets origin).all isSendable with
  | some origin => .error (.unsendable origin)
  | none => if origins.contains "*" then .error .wildcard else .ok (origins.map octets)

/-- What a response says about the origin of its request. -/
def sharingHeaders (origins : Origins) (request : List Header) : List Header :=
  [.ofText "access-control-allow-credentials" "true",
    .ofText "vary" "origin, access-control-request-method, access-control-request-headers"] ++
    match first? request "origin" with
    | none => []
    | some origin =>
      if origins.contains origin then [⟨"access-control-allow-origin", origin⟩] else []

/-- What the answer to a question in advance says besides. -/
def preflightHeaders : List Header :=
  [.ofText "access-control-allow-headers" "content-type,x-user-id",
    .ofText "access-control-allow-methods" "GET,POST,PUT",
    .ofText "access-control-max-age" "3600"]

end Origins

end Storyline.Http
