import Storyline.Creation.Create
import Storyline.Json.Row
import Storyline.Plan
import Storyline.Service.Input
import Storyline.Slug
import Storyline.Store.Query

/-!
# Handlers

What the service does for each kind of row: the rules, and the programs of queries.
-/

/-! ## Rules for what is stored

* `checkLengths`: how many characters texts may have;
* `checkedSlug`, `chosenSlug`: the slug that is asked for;
* `checkBeats`, `checkContent`: the definitions of a plan, and the beats that follow them.
-/

namespace Storyline

/-- A text with the number of characters that it may have. -/
structure Measured where
  field : String
  text : String
  least : Nat := 0
  most : Nat
  deriving DecidableEq, Repr

namespace Measured

/-- The text has as many characters as it may. -/
def fits (m : Measured) : Bool :=
  m.least ≤ m.text.toList.length && m.text.toList.length ≤ m.most

/-- A name has 1 to 200 characters. -/
def name (text : String) : Measured := ⟨"name", text, 1, 200⟩

/-- The content of a logline has 1 to 2000 characters. -/
def content (text : String) : Measured := ⟨"content", text, 1, 2000⟩

/-- A description, where there is one, has 2000 characters at most. -/
def description (text : Option String) : List Measured :=
  text.toList.map fun text => ⟨"description", text, 0, 2000⟩

/-- What is said about a text that does not fit. -/
def complaint (m : Measured) : String := m.field ++ ": Validation error: length"

end Measured

/-- Whether texts have as many characters as they may; all that have not are named, one a line. -/
def checkLengths (texts : List Measured) : Except Error Unit :=
  match texts.filter fun m => !m.fits with
  | [] => .ok ()
  | unfit => .error (.invalid ("\n".intercalate (unfit.map Measured.complaint)))

/-- A text that has to be a slug. -/
def checkedSlug (slug : String) : Except Error String :=
  match Slug.check slug with
  | .ok () => .ok slug
  | .error fault => .error (.invalid fault.message)

/-- The slug that is asked for: the one given or, where none is given, that of the name. -/
def chosenSlug (slug : Option String) (name : String) : Except Error String :=
  match slug with
  | some slug => checkedSlug slug
  | none =>
    if (Slug.ofTitle name).isEmpty then
      .error (.invalid "slug is required when name has no letters or digits")
    else checkedSlug (Slug.ofTitle name)

/-- Whether the definitions of a plan keep the rules. -/
def checkBeats (beats : List BeatDefinition) : Except Error Unit :=
  (checkDefinitions beats).mapError fun fault => .invalid fault.message

/-- Whether beats follow a plan. -/
def checkContent (content : List Beat) (definitions : List BeatDefinition) : Except Error Unit :=
  (checkConformance content definitions).mapError fun deviation =>
    .nonconforming deviation.message

/-! ## Actions

What the service does for a request: a program of queries that may end with a denial.

* `Action`; `Action.query`, `Action.found`, `Action.createLogline`, `Action.createStoryPlan`;
* `Reply`: the answer to a request that is served.
-/

/-- A program of queries that may end with a denial. -/
abbrev Action (α : Type) := ExceptT Denial (Prog TableStore) α

/-- A status and the body of an answer. -/
structure Reply where
  status : Nat
  body : Json
  deriving Repr

namespace Reply

/-- A body that holds data. -/
def data (status : Nat) (value : Json) : Reply := ⟨status, .obj [("data", value)]⟩

/-- The answer to a request that reads. -/
def ok (value : Json) : Reply := data 200 value

/-- The answer to a request that stores. -/
def created (value : Json) : Reply := data 201 value

end Reply

namespace Action

variable {α : Type}

/-- The action of a program whose failures are denied in a given way. -/
def ofProg {φ : Type} (deny : φ → Denial) (p : Prog TableStore (Except φ α)) : Action α :=
  ExceptT.mk (p.bind fun r => .done (r.mapError deny))

/-- One query. -/
def query (q : Query) : Action q.Result :=
  ofProg (fun f => .refused (.failure f)) (Storyline.query q)

/-- A check. -/
def check (r : Except Denial α) : Action α := ExceptT.mk (.done r)

/-- An error. -/
def fail (e : Error) : Action α := check (.error (.refused (.error e)))

/-- The row that a query found, or the error that there is none. -/
def found (e : Error) : Option α → Action α
  | some a => pure a
  | none => fail e

/-- Store a logline under a free slug. -/
def createLogline (policy : RetryPolicy) (row : NewLogline) : Action Logline :=
  ofProg (fun e => .refused (.creation e)) (Storyline.createLogline policy row)

/-- Store a story plan under a free slug. -/
def createStoryPlan (policy : RetryPolicy) (row : NewStoryPlan) : Action StoryPlan :=
  ofProg (fun e => .refused (.creation e)) (Storyline.createStoryPlan policy row)

end Action

/-! ## Loglines

A caller stores loglines and sees those of his own.

* `ownLogline`: the caller's logline of a slug;
* `Loglines.create`, `Loglines.list`, `Loglines.get`, `Loglines.sheets`.
-/

/-- The caller's logline of a slug. -/
def ownLogline (user : Int) (slug : String) : Action Logline := do
  let row ← Action.query (.loglineBySlug user slug)
  Action.found (.unknownSlug "Logline" slug) row

namespace Loglines

/-- What a logline to be stored has to keep: the lengths of its texts, then the form of its
slug. -/
def accept (user : Int) (input : LoglineInput) : Except Error NewLogline := do
  checkLengths [.content input.content, .name input.name]
  let slug ← chosenSlug input.slug input.name
  return ⟨user, slug, input.name, input.content⟩

/-- Store a logline. -/
def create (policy : RetryPolicy) (r : Http.Request) : Action Reply := do
  let user ← Action.check (callerOf r)
  let input ← Action.check (bodyOf LoglineInput.reader r)
  let row ← Action.check ((accept user input).mapError Error.denial)
  let logline ← Action.createLogline policy row
  return .created logline.toJson

/-- The caller's loglines. -/
def list (r : Http.Request) : Action Reply := do
  let user ← Action.check (callerOf r)
  let rows ← Action.query (.loglinesOf user)
  return .ok (.arr (rows.map Logline.toJson))

/-- A logline of the caller. -/
def get (segment : List Char) (r : Http.Request) : Action Reply := do
  let user ← Action.check (callerOf r)
  let slug ← Action.check (slugOf segment)
  let logline ← ownLogline user slug
  return .ok logline.toJson

/-- The sheets of a logline of the caller. -/
def sheets (segment : List Char) (r : Http.Request) : Action Reply := do
  let user ← Action.check (callerOf r)
  let slug ← Action.check (slugOf segment)
  let logline ← ownLogline user slug
  let rows ← Action.query (.sheetsOf logline.id)
  return .ok (.arr (rows.map BeatsSheet.toJson))

end Loglines

/-! ## Story plans

Story plans are shared by all callers. They are never changed: a revision is stored as a further
iteration under the same slug, and the newest iteration is the current one.

* `currentPlan`: the current iteration of a slug;
* `StoryPlans.create`, `StoryPlans.list`, `StoryPlans.get`, `StoryPlans.iterations`,
  `StoryPlans.revise`.
-/

/-- The current iteration of a slug. -/
def currentPlan (slug : String) : Action StoryPlan := do
  let row ← Action.query (.currentPlan slug)
  Action.found (.unknownSlug "StoryPlan" slug) row

namespace StoryPlans

/-- What a story plan to be stored has to keep: the lengths of its texts, the rules for its beats,
then the form of its slug. -/
def accept (input : StoryPlanInput) : Except Error NewStoryPlan := do
  checkLengths (Measured.description input.description ++ [.name input.name])
  checkBeats input.beats
  let slug ← chosenSlug input.slug input.name
  return ⟨slug, input.name, input.description, input.beats⟩

/-- What a further iteration has to keep. -/
def checkRevision (row : StoryPlanRevision) : Except Error Unit := do
  checkLengths (Measured.description row.description ++ [.name row.name])
  checkBeats row.beats

/-- Store a story plan. -/
def create (policy : RetryPolicy) (r : Http.Request) : Action Reply := do
  let _ ← Action.check (callerOf r)
  let input ← Action.check (bodyOf StoryPlanInput.reader r)
  let row ← Action.check ((accept input).mapError Error.denial)
  let plan ← Action.createStoryPlan policy row
  return .created plan.toJson

/-- The current iterations of all plans. -/
def list : Action Reply := do
  let rows ← Action.query .currentPlans
  return .ok (.arr (rows.map StoryPlan.toJson))

/-- The current iteration of a plan. -/
def get (segment : List Char) : Action Reply := do
  let slug ← Action.check (slugOf segment)
  let plan ← currentPlan slug
  return .ok plan.toJson

/-- All iterations of a plan. -/
def iterations (segment : List Char) : Action Reply := do
  let slug ← Action.check (slugOf segment)
  let rows ← Action.query (.planIterations slug)
  if rows.isEmpty then Action.fail (.unknownSlug "StoryPlan" slug)
  else return .ok (.arr (rows.map StoryPlan.toJson))

/-- Store a further iteration of a plan. -/
def revise (segment : List Char) (r : Http.Request) : Action Reply := do
  let _ ← Action.check (callerOf r)
  let slug ← Action.check (slugOf segment)
  let row ← Action.check (bodyOf StoryPlanRevision.reader r)
  Action.check ((checkRevision row).mapError Error.denial)
  let _ ← currentPlan slug
  let plan ← Action.query (.revisePlan slug row)
  return .ok plan.toJson

end StoryPlans

/-! ## Beats sheets

A sheet belongs to the caller who owns its logline, and stays with the iteration of the story plan
that it was written after.

* `ownSheet`: a sheet of the caller, with its logline;
* `BeatsSheets.create`, `BeatsSheets.get`, `BeatsSheets.renew`.
-/

/-- A sheet of the caller, with its logline. Another's sheet is as good as none. -/
def ownSheet (user id : Int) : Action (BeatsSheet × Logline) := do
  let sheet? ← Action.query (.sheetById id)
  let sheet ← Action.found (.unknownId "BeatsSheet" id) sheet?
  let logline? ← Action.query (.loglineById sheet.loglineId)
  let logline ← Action.found (.unknownId "BeatsSheet" id)
    (Option.filter (fun (l : Logline) => l.userId = user) logline?)
  return (sheet, logline)

namespace BeatsSheets

/-- Store beats that follow an iteration. -/
def store (logline : Logline) (plan : StoryPlan) (content : List Beat) : Action Reply := do
  Action.check ((checkContent content plan.beats).mapError Error.denial)
  let sheet ← Action.query (.insertSheet ⟨logline.id, plan.id, content⟩)
  return .created sheet.toJson

/-- Store a sheet after the current iteration of a plan. -/
def create (r : Http.Request) : Action Reply := do
  let user ← Action.check (callerOf r)
  let input ← Action.check (bodyOf BeatsSheetInput.reader r)
  let logline ← ownLogline user input.loglineSlug
  let plan ← currentPlan input.storyPlanSlug
  store logline plan input.content

/-- A sheet of the caller. -/
def get (segment : List Char) (r : Http.Request) : Action Reply := do
  let user ← Action.check (callerOf r)
  let id ← Action.check (idOf segment)
  let (sheet, _) ← ownSheet user id
  return .ok sheet.toJson

/-- Store a further sheet with the logline and the iteration of an earlier one. -/
def renew (segment : List Char) (r : Http.Request) : Action Reply := do
  let user ← Action.check (callerOf r)
  let id ← Action.check (idOf segment)
  let input ← Action.check (bodyOf ContentInput.reader r)
  let (previous, logline) ← ownSheet user id
  let plan? ← Action.query (.planById previous.storyPlanId)
  let plan ← Action.found (.unknownId "StoryPlan" previous.storyPlanId) plan?
  store logline plan input.content

end BeatsSheets

end Storyline
