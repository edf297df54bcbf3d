import Storyline.Creation.Create
import Storyline.Store.Row

/-!
# Queries

What is asked of the tables, how that fails, and the creations that are made of it.
-/

/-! ## Failures of the tables

* `Failure`: why a query on the tables fails;
* `Failure.message`: each in words;
* `Failure.isDuplicate`: the failures that tell of a value that exists already.
-/

namespace Storyline

/-- Why a query fails. -/
inductive Failure
  /-- A row was wanted and there is none. -/
  | noRow
  /-- The tables cannot be reached any more. -/
  | closed
  /-- The tables refuse the statement, with a code and perhaps a constraint that it breaks. -/
  | refused (code : String) (constraint : Option String) (message : String)
  /-- The query fails in another way: on its way to the tables or back, or for what it carries. -/
  | other (message : String)
  deriving DecidableEq, Repr

namespace Failure

/-- The code of a statement that would store a value for the second time. -/
def duplicateCode : String := "23505"

/-- The code of a statement that refers to a row which does not exist. -/
def danglingCode : String := "23503"

/-- The code of a statement with a text that cannot be stored. -/
def textCode : String := "22021"

/-- The code of a statement with a text that cannot be stored inside a document. -/
def documentCode : String := "22P05"

/-- The failure in words. -/
def message : Failure → String
  | noRow => "no rows returned by a query that expected to return at least one row"
  | closed => "attempted to acquire a connection on a closed pool"
  | refused _ _ text => s!"error returned from database: {text}"
  | other text => text

/-- The statement would store a value for the second time. -/
def isDuplicate : Failure → Bool
  | refused code _ _ => code == duplicateCode
  | _ => false

/-- The value exists already under a constraint of the given name. -/
def duplicate (constraint : String) : Failure :=
  refused duplicateCode (some constraint) "duplicate key value violates unique constraint"

/-- The row referred to by the constraint does not exist. -/
def dangling (constraint : String) : Failure :=
  refused danglingCode (some constraint) "insert violates foreign key constraint"

/-- A text holds the character that tables cannot store. -/
def unstorableText : Failure := refused textCode none "invalid byte sequence"

/-- A text inside a document holds the character that tables cannot store. -/
def unstorableDocument : Failure := refused documentCode none "unsupported escape sequence"

end Failure

/-! ## Queries

The calls of the service on its tables. A query is answered as a whole: what it reads and writes is
not mixed with another's. For `Query.createPlan`, which takes four statements, this hides no rows
that another query could see between them: nobody sees the rows of an open transaction, whoever
wants to reserve the same slug waits for its end, and if it fails its rows are gone.

* `Query`, `Query.Result`;
* `TableStore`: the interface of programs that query; `query`.
-/

/-- A question to the tables, or a row to be stored. -/
inductive Query
  | insertLogline (row : NewLogline)
  /-- The latest variant of a base among a user's loglines. -/
  | latestLogline (user : Int) (base : String) (order : VariantOrder)
  | loglineBySlug (user : Int) (slug : String)
  | loglineById (id : Int)
  | loglinesOf (user : Int)
  /-- Reserve the slug of a plan and store its first iteration, both or neither. -/
  | createPlan (row : NewStoryPlan)
  /-- Store a further iteration. -/
  | revisePlan (slug : String) (row : StoryPlanRevision)
  /-- The latest variant of a base among the slugs of plans. -/
  | latestPlan (base : String) (order : VariantOrder)
  | planById (id : Int)
  | currentPlan (slug : String)
  | planIterations (slug : String)
  | currentPlans
  | insertSheet (row : NewBeatsSheet)
  | sheetById (id : Int)
  | sheetsOf (logline : Int)
  /-- Whether the tables answer at all. -/
  | probe
  deriving DecidableEq, Repr

namespace Query

/-- What a query answers when it does not fail. -/
abbrev Result : Query → Type
  | insertLogline _ => Logline
  | latestLogline _ _ _ => Option String
  | loglineBySlug _ _ => Option Logline
  | loglineById _ => Option Logline
  | loglinesOf _ => List Logline
  | createPlan _ => StoryPlan
  | revisePlan _ _ => StoryPlan
  | latestPlan _ _ => Option String
  | planById _ => Option StoryPlan
  | currentPlan _ => Option StoryPlan
  | planIterations _ => List StoryPlan
  | currentPlans => List StoryPlan
  | insertSheet _ => BeatsSheet
  | sheetById _ => Option BeatsSheet
  | sheetsOf _ => List BeatsSheet
  | probe => Unit

end Query

/-- Tables that answer queries. -/
abbrev TableStore : Interface := ⟨Query, fun q => Except Failure q.Result⟩

/-- The program of one query. -/
def query (q : Query) : Prog TableStore (Except Failure q.Result) := .ask q .done

/-! ## Creation in the tables

The calls of a creation are answered by queries: for loglines by user, for story plans in common.

* `insertError`: what a failed insert means to a creation. A value that exists already is a taken
  slug, any other failure is one of the store;
* `loglineIntake`, `storyPlanIntake`: the query behind each call;
* `createLogline`, `createStoryPlan`: creation as a program of queries.
-/

/-- What a failed insert under a slug means. -/
def insertError (entity slug : String) (failure : Failure) : Error :=
  if failure.isDuplicate then .slugTaken entity slug
  else .storeFailed s!"insert {entity} '{slug}'" none

/-- The queries behind the calls of a logline's creation. -/
def loglineIntake :
    (c : CandidateCall NewLogline) → Prog TableStore (CandidateCall.Answer Logline c)
  | .insert row =>
    (query (.insertLogline row)).bind fun (answer : Except Failure Logline) =>
      .done (answer.mapError (insertError "Logline" row.slug))
  | .latest base (.user user) order =>
    (query (.latestLogline user base order)).bind fun (answer : Except Failure (Option String)) =>
      .done (answer.mapError fun _ =>
        .storeFailed s!"find latest logline variant of '{base}'" none)
  | .latest _ .everywhere _ => .done (.error (.internal "logline slugs are scoped per user"))

/-- The queries behind the calls of a story plan's creation. -/
def storyPlanIntake :
    (c : CandidateCall NewStoryPlan) → Prog TableStore (CandidateCall.Answer StoryPlan c)
  | .insert row =>
    (query (.createPlan row)).bind fun (answer : Except Failure StoryPlan) =>
      .done (answer.mapError (insertError "StoryPlan" row.slug))
  | .latest base _ order =>
    (query (.latestPlan base order)).bind fun (answer : Except Failure (Option String)) =>
      .done (answer.mapError fun _ =>
        .storeFailed s!"find latest story plan variant of '{base}'" none)

/-- Store a logline under a free slug. -/
def createLogline (policy : RetryPolicy) (row : NewLogline) :
    Prog TableStore (Except CreationError Logline) :=
  Prog.interpret (I := CandidateStore NewLogline Logline) loglineIntake (create policy row)

/-- Store a story plan under a free slug. -/
def createStoryPlan (policy : RetryPolicy) (row : NewStoryPlan) :
    Prog TableStore (Except CreationError StoryPlan) :=
  Prog.interpret (I := CandidateStore NewStoryPlan StoryPlan) storyPlanIntake (create policy row)

end Storyline
