import Storyline.Text

/-!
# Beats

A story plan is an ordered list of beat definitions; a beats sheet fills it with beats.

* `BeatDefinition`, `Beat`.
-/

namespace Storyline

/-- What a plan says about one beat. -/
structure BeatDefinition where
  key : String
  name : String
  keyPoints : List String := []
  purpose : String := ""
  minScenes : Option UInt32 := none
  maxScenes : Option UInt32 := none
  deriving DecidableEq, Repr

/-- One beat of a sheet. -/
structure Beat where
  key : String
  title : String
  content : String
  deriving DecidableEq, Repr

/-! ## Rules for the definitions of a plan

A plan has between one and a hundred beats. Their keys, taken without the blanks around them, are
not empty, at most 64 bytes long and all different; a lower bound on scenes does not exceed the
upper one.

* `DefinitionFault`: how a list of definitions breaks the rules;
* `checkDefinitions`: the first fault.
-/

/-- The most beats of a plan. -/
def maxDefinitions : Nat := 100

/-- The most bytes of a beat's key. -/
def maxKeyBytes : Nat := 64

/-- A rule that definitions break. -/
inductive DefinitionFault
  | noBeats
  | tooMany (count : Nat)
  | emptyKey (index : Nat)
  | longKey (index : Nat)
  | repeatedKey (key : String)
  | bounds (key : String) (min max : UInt32)
  deriving DecidableEq, Repr

/-- The fault in words. -/
def DefinitionFault.message : DefinitionFault → String
  | .noBeats => "story plan must define at least one beat"
  | .tooMany count => s!"story plan defines {count} beats, maximum is {maxDefinitions}"
  | .emptyKey index => s!"beat definition {index} has an empty key"
  | .longKey index => s!"beat definition {index} key exceeds {maxKeyBytes} bytes"
  | .repeatedKey key => s!"beat key '{key}' is defined more than once"
  | .bounds key min max => s!"beat '{key}' has min_scenes {min} greater than max_scenes {max}"

/-- The scene bounds of a definition contradict each other. -/
def BeatDefinition.boundsFault? (d : BeatDefinition) : Option DefinitionFault :=
  match d.minScenes, d.maxScenes with
  | some min, some max => if max < min then some (.bounds d.key min max) else none
  | _, _ => none

/-- The first fault of one definition at `index`, after definitions with the keys `seen`. -/
def BeatDefinition.fault? (index : Nat) (seen : List String) (d : BeatDefinition) :
    Option DefinitionFault :=
  let key := Text.trimmed d.key
  if key.isEmpty then some (.emptyKey index)
  else if key.utf8ByteSize > maxKeyBytes then some (.longKey index)
  else if seen.contains key then some (.repeatedKey key)
  else d.boundsFault?

/-- The first fault of definitions from `index` on, after definitions with the keys `seen`. -/
def firstFault (index : Nat) (seen : List String) : List BeatDefinition → Option DefinitionFault
  | [] => none
  | d :: ds =>
    match d.fault? index seen with
    | some fault => some fault
    | none => firstFault (index + 1) (Text.trimmed d.key :: seen) ds

/-- Whether definitions keep the rules; their number is asked for first. -/
def checkDefinitions (definitions : List BeatDefinition) : Except DefinitionFault Unit :=
  if definitions.isEmpty then .error .noBeats
  else if definitions.length > maxDefinitions then .error (.tooMany definitions.length)
  else
    match firstFault 0 [] definitions with
    | none => .ok ()
    | some fault => .error fault

/-! ## Conformance of beats to a plan

The beats of a sheet follow a plan position by position: as many, with the same keys, in the same
order. Nothing else of them is looked at.

* `Deviation`: how beats differ from a plan;
* `checkConformance`: the first deviation.
-/

/-- A difference between beats and the definitions of a plan. -/
inductive Deviation
  | count (expected got : Nat)
  | key (index : Nat) (got expected : String)
  deriving DecidableEq, Repr

/-- The deviation in words. -/
def Deviation.message : Deviation → String
  | .count expected got => s!"expected {expected} beats, got {got}"
  | .key index got expected => s!"beat {index} has key '{got}', expected '{expected}'"

/-- The first position, counted from `index`, at which the keys differ. -/
def firstKeyDeviation (index : Nat) : List Beat → List BeatDefinition → Option Deviation
  | beat :: beats, definition :: definitions =>
    if beat.key = definition.key then firstKeyDeviation (index + 1) beats definitions
    else some (.key index beat.key definition.key)
  | _, _ => none

/-- Whether beats follow the definitions; the numbers are compared before the keys. -/
def checkConformance (content : List Beat) (definitions : List BeatDefinition) :
    Except Deviation Unit :=
  if content.length = definitions.length then
    match firstKeyDeviation 0 content definitions with
    | none => .ok ()
    | some deviation => .error deviation
  else .error (.count definitions.length content.length)

end Storyline
