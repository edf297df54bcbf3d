import Storyline.Store.Query
import Storyline.Store.Tables

/-!
# The database

Tables that answer queries statement by statement, and statements that are made to fail.
-/

/-! ## Outages

Statements can be made to fail: an outage lets a number of executions of one statement through and
refuses a number of them afterwards.

* `Statement`: the statements that queries are made of;
* `Outage`, `strike`: whether an execution fails, and the outages that are left.
-/

namespace Storyline

/-- The statements on the tables. A query is one of them; a new story plan is stored by two, between
two more that open and close a transaction. -/
inductive Statement
  | openTransaction
  | commit
  | insertLogline
  | latestLogline
  | loglineBySlug
  | loglineById
  | loglinesOf
  | reserveSlug
  | insertPlan
  | latestPlan
  | planById
  | plansBySlug
  | currentPlans
  | insertSheet
  | sheetById
  | sheetsOf
  | probe
  deriving DecidableEq, Repr

/-- Failures to come of one statement. -/
structure Outage where
  statement : Statement
  code : String
  constraint : Option String
  /-- Executions that are still let through. -/
  skip : Nat := 0
  /-- Executions that still fail afterwards. -/
  times : Nat := 1
  deriving DecidableEq, Repr

/-- The failure of an outage. -/
def Outage.failure (o : Outage) : Failure := .refused o.code o.constraint "outage"

/-- Whether an execution of `statement` fails. The outages are asked in turn; one that lets the
execution through counts it. -/
def strike (statement : Statement) : List Outage → Option Failure × List Outage
  | [] => (none, [])
  | o :: os =>
    if o.statement = statement then
      if 0 < o.skip then
        let (failure, rest) := strike statement os
        (failure, { o with skip := o.skip - 1 } :: rest)
      else if 0 < o.times then (some o.failure, { o with times := o.times - 1 } :: os)
      else
        let (failure, rest) := strike statement os
        (failure, o :: rest)
    else
      let (failure, rest) := strike statement os
      (failure, o :: rest)

/-! ## The database

Tables with a clock that stamps new rows and with outages to come.

* `Database`;
* `Database.execute`: one statement. A text that cannot be stored is refused first, then outages
  strike, and only then the tables are read or written;
* `Database.transact`: statements that take effect together or not at all;
* `Database.handle`: the answers to all queries.
-/

/-- Tables, the time, and the outages to come. -/
structure Database where
  tables : Tables := {}
  now : Timestamp
  outages : List Outage := []
  deriving DecidableEq, Repr

/-- The text holds the character U+0000, which the tables cannot store or compare. -/
def holdsNul (s : String) : Bool := s.toList.contains '\x00'

/-- The texts of a definition inside a document. -/
def BeatDefinition.texts (d : BeatDefinition) : List String :=
  d.key :: d.name :: d.purpose :: d.keyPoints

/-- The texts of a beat inside a document. -/
def Beat.texts (b : Beat) : List String := [b.key, b.title, b.content]

namespace Database

variable {α β : Type}

/-- One statement with its texts and the texts inside its documents. -/
def execute (statement : Statement) (texts documentTexts : List String)
    (effect : Timestamp → Tables → Except Failure α × Tables) (db : Database) :
    Except Failure α × Database :=
  if texts.any holdsNul then (.error .unstorableText, db)
  else if documentTexts.any holdsNul then (.error .unstorableDocument, db)
  else
    match strike statement db.outages with
    | (some failure, outages) => (.error failure, { db with outages })
    | (none, outages) =>
      let (answer, tables) := effect db.now db.tables
      (answer, { db with tables, outages })

/-- One statement that only reads. -/
def read (statement : Statement) (texts : List String) (question : Tables → α) (db : Database) :
    Except Failure α × Database :=
  db.execute statement texts [] fun _ tables => (.ok (question tables), tables)

/-- One statement that opens or closes a transaction. -/
def mark (statement : Statement) (db : Database) : Except Failure Unit × Database :=
  db.execute statement [] [] fun _ tables => (.ok (), tables)

/-- Reserve a slug. -/
def reserveSlug (slug : String) (db : Database) : Except Failure Unit × Database :=
  db.execute .reserveSlug [slug] [] fun now => Tables.reserveSlug now slug

/-- Store an iteration. -/
def insertPlan (slug : String) (row : StoryPlanRevision) (db : Database) :
    Except Failure StoryPlan × Database :=
  db.execute .insertPlan (slug :: row.name :: row.description.toList)
    (row.beats.flatMap BeatDefinition.texts) fun now => Tables.insertPlan now slug row

/-- One step of a transaction after another. -/
def andThen (first : Database → Except Failure α × Database)
    (next : α → Database → Except Failure β × Database) (db : Database) :
    Except Failure β × Database :=
  match first db with
  | (.error failure, db) => (.error failure, db)
  | (.ok a, db) => next a db

/-- A step whose rows are undone if it fails. -/
def transact (step : Database → Except Failure α × Database) (db : Database) :
    Except Failure α × Database :=
  match step db with
  | (.error failure, after) =>
    (.error failure, { after with tables := after.tables.rolledBack db.tables })
  | (.ok a, after) => (.ok a, after)

/-- Reserve a slug and store the first iteration under it, both or neither. -/
def createPlan (row : NewStoryPlan) : Database → Except Failure StoryPlan × Database :=
  transact <| andThen (mark .openTransaction) fun _ =>
    andThen (reserveSlug row.slug) fun _ =>
      andThen (insertPlan row.slug row.revision) fun plan =>
        andThen (mark .commit) fun _ db => (.ok plan, db)

/-- The answer to a query, and the database afterwards. -/
def handle : Prog.Handler TableStore Database
  | .insertLogline row, db =>
    db.execute .insertLogline [row.slug, row.name, row.content] [] fun now =>
      Tables.insertLogline now row
  | .latestLogline user base order, db =>
    db.read .latestLogline [base] fun t => t.latestLogline? user base order
  | .loglineBySlug user slug, db =>
    db.read .loglineBySlug [slug] fun t => t.loglineBySlug? user slug
  | .loglineById id, db => db.read .loglineById [] fun t => t.logline? id
  | .loglinesOf user, db => db.read .loglinesOf [] fun t => t.loglinesOf user
  | .createPlan row, db => createPlan row db
  | .revisePlan slug row, db => db.insertPlan slug row
  | .latestPlan base order, db =>
    db.read .latestPlan [base] fun t => t.latestPlan? base order
  | .planById id, db => db.read .planById [] fun t => t.plan? id
  | .currentPlan slug, db => db.read .plansBySlug [slug] fun t => t.currentPlan? slug
  | .planIterations slug, db => db.read .plansBySlug [slug] fun t => t.planIterations slug
  | .currentPlans, db => db.read .currentPlans [] Tables.currentPlans
  | .insertSheet row, db =>
    db.execute .insertSheet [] (row.content.flatMap Beat.texts) fun now =>
      Tables.insertSheet now row
  | .sheetById id, db => db.read .sheetById [] fun t => t.sheet? id
  | .sheetsOf logline, db => db.read .sheetsOf [] fun t => t.sheetsOf logline
  | .probe, db => db.read .probe [] fun _ => ()

end Database

end Storyline
