import Storyline.Creation.Create
import Storyline.Text

/-!
# Settings

The settings of a server, taken from named texts of its environment.

* `Settings`;
* `Settings.ofEnvironment`: the settings that an environment spells, or its first bad entry.
-/

namespace Storyline

/-- The settings of a server. -/
structure Settings where
  host : String
  port : UInt16
  /-- The origins whose pages may use the service. -/
  origins : List String
  /-- Seconds for a request. -/
  requestTimeout : UInt64
  /-- Seconds for the requests that are still open at the end. -/
  shutdownTimeout : UInt64
  slugPolicy : RetryPolicy
  deriving DecidableEq, Repr

namespace Settings

/-- An entry that cannot be used. -/
inductive Fault
  /-- An entry is no number of the given type. -/
  | number (name type : String) (fault : Numeral.Fault)
  /-- The order of iterations is unknown. -/
  | order (error : Error)
  deriving DecidableEq, Repr

/-- The name of a fault in a numeral. -/
def faultName : Numeral.Fault → String
  | .empty => "Empty"
  | .invalidDigit => "InvalidDigit"
  | .tooLarge => "PosOverflow"

/-- The fault in words. -/
def Fault.message : Fault → String
  | .number name type fault =>
    name ++ " must be a valid " ++ type ++ ": ParseIntError \x7b kind: " ++ faultName fault ++
      " \x7d"
  | .order e => "SLUG_ITERATION_ORDER is invalid: " ++ e.message

/-- An environment: the text of each name that is set. What is set to no text of Unicode counts as
not set. -/
abbrev Environment := String → Option String

/-- The number of `size` values that an entry spells. -/
def number (env : Environment) (name type : String) (size : Nat) (default : String) :
    Except Fault Nat :=
  match Numeral.read (size - 1) ((env name).getD default).toList with
  | .error fault => .error (.number name type fault)
  | .ok n => .ok n

/-- The entries of a list that is separated by commas, without blanks around them and without
empty ones. -/
def listed (text : String) : List String :=
  ((Text.pieces ',' text.toList).map fun piece => String.ofList (Text.trim piece)).filter
    fun entry => !entry.isEmpty

/-- The order that an entry names. -/
def order (env : Environment) : Except Fault VariantOrder :=
  match VariantOrder.ofName ((env "SLUG_ITERATION_ORDER").getD VariantOrder.newest.name) with
  | .error e => .error (.order e)
  | .ok order => .ok order

/-- The settings of an environment. The numbers are read in a fixed order, and then the order of
iterations. -/
def ofEnvironment (env : Environment) : Except Fault Settings := do
  let port ← number env "PORT" "u16" UInt16.size "3000"
  let requestTimeout ← number env "REQUEST_TIMEOUT_SECS" "u64" UInt64.size "30"
  let shutdownTimeout ← number env "SHUTDOWN_TIMEOUT_SECS" "u64" UInt64.size "30"
  let retries ← number env "SLUG_MAX_RETRIES" "u32" UInt32.size "1"
  let order ← order env
  return {
    host := (env "HOST").getD "0.0.0.0"
    port := UInt16.ofNat port
    origins := listed ((env "CORS_ORIGINS").getD "http://localhost:5173")
    requestTimeout := UInt64.ofNat requestTimeout
    shutdownTimeout := UInt64.ofNat shutdownTimeout
    slugPolicy := ⟨UInt32.ofNat retries, order⟩ }

end Settings

end Storyline
