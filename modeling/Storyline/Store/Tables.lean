import Storyline.Slug
import Storyline.Store.Query
import Storyline.Store.Row

/-!
# Tables

The rows of the service, in the order in which they were inserted, and what is asked of them.

* `Table`, `Tables`;
* questions: `Tables.latestLogline?`, `Tables.loglineBySlug?`, `Tables.currentPlan?`,
  `Tables.planIterations`, `Tables.currentPlans`, ...;
* `Tables.insertLogline`, `Tables.reserveSlug`, `Tables.insertPlan`, `Tables.insertSheet`: an
  insert that breaks a constraint stores nothing but still uses up a number.
-/

namespace Storyline

/-- Rows, and the number that was used last for one. -/
structure Table (ρ : Type) where
  rows : List ρ := []
  lastId : Nat := 0
  deriving DecidableEq, Repr

namespace Table

variable {ρ : Type}

/-- The number for the next row. -/
def nextId (t : Table ρ) : Int := t.lastId + 1

/-- The table after a number has been used up. -/
def useId (t : Table ρ) : Table ρ := { t with lastId := t.lastId + 1 }

/-- The table with one more row, under the next number. -/
def append (t : Table ρ) (row : ρ) : Table ρ := ⟨t.rows ++ [row], t.lastId + 1⟩

end Table

/-- The tables of the service. -/
structure Tables where
  loglines : Table Logline := {}
  reservations : Table SlugReservation := {}
  plans : Table StoryPlan := {}
  sheets : Table BeatsSheet := {}
  deriving DecidableEq, Repr

/-! ## Variants -/

/-- A slug that is a variant of some base, with its digits and the stamp of its row. -/
structure StoredVariant where
  slug : String
  digits : List Char
  stamp : Stamp
  deriving DecidableEq, Repr

/-- The variants of `base` among stamped slugs. -/
def variantsOf (base : String) (slugs : List (String × Stamp)) : List StoredVariant :=
  slugs.filterMap fun (slug, stamp) =>
    (Slug.suffix? base slug).map fun digits => ⟨slug, digits, stamp⟩

/-- One variant counts as later than another. Of equal numbers the row with the larger id does. -/
def VariantOrder.precedes (order : VariantOrder) (a b : StoredVariant) : Bool :=
  match order with
  | newest => a.stamp.precedes b.stamp
  | highest =>
    Slug.suffixValue b.digits < Slug.suffixValue a.digits ||
      (Slug.suffixValue a.digits == Slug.suffixValue b.digits && b.stamp.id ≤ a.stamp.id)

/-- The latest of the variants of `base`. Its number is compared however long it is; where the
numbers of the database end, its refusal is an outage of the lookup. -/
def latestVariant? (base : String) (order : VariantOrder) (slugs : List (String × Stamp)) :
    Option String :=
  (sortBy order.precedes (variantsOf base slugs)).head?.map StoredVariant.slug

/-! ## Iterations of plans -/

/-- The iterations of a slug, newest first. -/
def iterationsOf (plans : List StoryPlan) (slug : String) : List StoryPlan :=
  newestFirst StoryPlan.stamp (plans.filter (·.slug = slug))

/-- Plans by slug; those of one slug, newest first. It is assumed that the collation of the database
orders texts by the code points of their characters. -/
def StoryPlan.precedes (a b : StoryPlan) : Bool :=
  a.slug < b.slug || (a.slug == b.slug && a.stamp.precedes b.stamp)

/-- The rows whose slug is not that of the row before them, which is `previous` for the first. -/
def firstOfEachSlug (previous : Option String) : List StoryPlan → List StoryPlan
  | [] => []
  | p :: ps =>
    if previous = some p.slug then firstOfEachSlug previous ps
    else p :: firstOfEachSlug (some p.slug) ps

/-- The newest iteration of every slug, by slug. -/
def currentOfEach (plans : List StoryPlan) : List StoryPlan :=
  firstOfEachSlug none (sortBy StoryPlan.precedes plans)

namespace Tables

/-! ## Questions -/

/-- The latest variant of `base` among a user's loglines. -/
def latestLogline? (t : Tables) (user : Int) (base : String) (order : VariantOrder) :
    Option String :=
  latestVariant? base order
    ((t.loglines.rows.filter (·.userId = user)).map fun row => (row.slug, row.stamp))

/-- A user's logline of a slug. -/
def loglineBySlug? (t : Tables) (user : Int) (slug : String) : Option Logline :=
  t.loglines.rows.find? fun row => row.userId = user ∧ row.slug = slug

/-- The logline of a number. -/
def logline? (t : Tables) (id : Int) : Option Logline := t.loglines.rows.find? (·.id = id)

/-- A user's loglines, newest first. -/
def loglinesOf (t : Tables) (user : Int) : List Logline :=
  newestFirst Logline.stamp (t.loglines.rows.filter (·.userId = user))

/-- The latest variant of `base` among the slugs of story plans. -/
def latestPlan? (t : Tables) (base : String) (order : VariantOrder) : Option String :=
  latestVariant? base order (t.reservations.rows.map fun row => (row.slug, row.stamp))

/-- The iteration of a number. -/
def plan? (t : Tables) (id : Int) : Option StoryPlan := t.plans.rows.find? (·.id = id)

/-- The iterations of a slug, newest first. -/
def planIterations (t : Tables) (slug : String) : List StoryPlan := iterationsOf t.plans.rows slug

/-- The newest iteration of a slug. -/
def currentPlan? (t : Tables) (slug : String) : Option StoryPlan := (t.planIterations slug).head?

/-- The newest iteration of every slug, by slug. -/
def currentPlans (t : Tables) : List StoryPlan := currentOfEach t.plans.rows

/-- The sheet of a number. -/
def sheet? (t : Tables) (id : Int) : Option BeatsSheet := t.sheets.rows.find? (·.id = id)

/-- The sheets of a logline, newest first. -/
def sheetsOf (t : Tables) (logline : Int) : List BeatsSheet :=
  newestFirst BeatsSheet.stamp (t.sheets.rows.filter (·.loglineId = logline))

/-! ## Inserts

Constraints decide whether a row is stored. A database has limits besides, as on the size of a row
that is to be indexed; what it refuses for these is an outage of the statement.
-/

/-- Store a logline, whose slug has to be new for its user. -/
def insertLogline (now : Timestamp) (d : NewLogline) (t : Tables) :
    Except Failure Logline × Tables :=
  if t.loglines.rows.any fun row => row.userId = d.userId ∧ row.slug = d.slug then
    (.error (.duplicate "uq_loglines_user_id_slug"), { t with loglines := t.loglines.useId })
  else
    let row : Logline := ⟨t.loglines.nextId, d.userId, d.slug, d.name, d.content, now⟩
    (.ok row, { t with loglines := t.loglines.append row })

/-- Take a slug for a story plan; it has to be new. -/
def reserveSlug (now : Timestamp) (slug : String) (t : Tables) : Except Failure Unit × Tables :=
  if t.reservations.rows.any (·.slug = slug) then
    (.error (.duplicate "uq_story_plan_slugs_slug"),
      { t with reservations := t.reservations.useId })
  else
    (.ok (), { t with reservations := t.reservations.append ⟨t.reservations.nextId, slug, now⟩ })

/-- Store an iteration under a slug that has been taken before. -/
def insertPlan (now : Timestamp) (slug : String) (d : StoryPlanRevision) (t : Tables) :
    Except Failure StoryPlan × Tables :=
  if t.reservations.rows.any (·.slug = slug) then
    let row : StoryPlan := ⟨t.plans.nextId, slug, d.name, d.description, d.beats, now⟩
    (.ok row, { t with plans := t.plans.append row })
  else (.error (.dangling "story_plans_slug_fkey"), { t with plans := t.plans.useId })

/-- Store a sheet, whose logline and iteration have to exist. -/
def insertSheet (now : Timestamp) (d : NewBeatsSheet) (t : Tables) :
    Except Failure BeatsSheet × Tables :=
  if (t.logline? d.loglineId).isNone then
    (.error (.dangling "beats_sheets_logline_id_fkey"), { t with sheets := t.sheets.useId })
  else if (t.plan? d.storyPlanId).isNone then
    (.error (.dangling "beats_sheets_story_plan_id_fkey"), { t with sheets := t.sheets.useId })
  else
    let row : BeatsSheet := ⟨t.sheets.nextId, d.loglineId, d.storyPlanId, d.content, now⟩
    (.ok row, { t with sheets := t.sheets.append row })

/-- The tables with the rows of an earlier time; the numbers used since stay used. -/
def rolledBack (t earlier : Tables) : Tables where
  loglines := { t.loglines with rows := earlier.loglines.rows }
  reservations := { t.reservations with rows := earlier.reservations.rows }
  plans := { t.plans with rows := earlier.plans.rows }
  sheets := { t.sheets with rows := earlier.sheets.rows }

end Tables

end Storyline
