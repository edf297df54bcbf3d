import Storyline.Creation.Create
import Storyline.Plan

/-!
# Rows and their order

Points in time, the order in which rows are listed, and the rows.
-/

/-! ## Points in time

A point in time is a number of microseconds since the beginning of 1970, in universal time.

* `Timestamp.civil`: the date of a day in the Gregorian calendar;
* `Timestamp.render`: the text of a point in time, with as few of 0, 3 or 6 digits behind the
  second as show it whole.
-/

namespace Storyline

/-- Microseconds since the beginning of 1970. -/
abbrev Timestamp := Int

namespace Timestamp

/-- A date of the Gregorian calendar. -/
structure Date where
  year : Int
  month : Nat
  day : Nat
  deriving DecidableEq, Repr

/-- The date of a day, counted from the first of January 1970. Days are counted from the first of
March of a year 0, so that a leap day is the last of its year, and 400 years have 146097 days. -/
def civil (days : Int) : Date :=
  let shifted := days + 719468
  let era := shifted.fdiv 146097
  let dayOfEra := (shifted.fmod 146097).toNat
  let yearOfEra := (dayOfEra - dayOfEra / 1460 + dayOfEra / 36524 - dayOfEra / 146096) / 365
  let dayOfYear := dayOfEra - (365 * yearOfEra + yearOfEra / 4 - yearOfEra / 100)
  let shiftedMonth := (5 * dayOfYear + 2) / 153
  let day := dayOfYear - (153 * shiftedMonth + 2) / 5 + 1
  let month := if shiftedMonth < 10 then shiftedMonth + 3 else shiftedMonth - 9
  ⟨yearOfEra + era * 400 + (if month ≤ 2 then 1 else 0), month, day⟩

/-- A number with at least `width` digits. -/
def padded (width n : Nat) : String :=
  let digits := Nat.toDigits 10 n
  String.ofList (List.replicate (width - digits.length) '0' ++ digits)

/-- A year has four digits; one before 0 or after 9999 has a sign. -/
def renderYear (year : Int) : String :=
  if 0 ≤ year && year ≤ 9999 then padded 4 year.toNat
  else if year < 0 then "-" ++ padded 4 year.natAbs
  else "+" ++ padded 4 year.natAbs

/-- The microseconds behind the second. -/
def renderFraction (micros : Nat) : String :=
  if micros = 0 then ""
  else if micros % 1000 = 0 then "." ++ padded 3 (micros / 1000)
  else "." ++ padded 6 micros

/-- The text of a point in time. -/
def render (t : Timestamp) : String :=
  let date := civil (t.fdiv 86400000000)
  let micros := (t.fmod 86400000000).toNat
  let seconds := micros / 1000000
  renderYear date.year ++ "-" ++ padded 2 date.month ++ "-" ++ padded 2 date.day ++ "T" ++
    padded 2 (seconds / 3600) ++ ":" ++ padded 2 (seconds / 60 % 60) ++ ":" ++
    padded 2 (seconds % 60) ++ renderFraction (micros % 1000000) ++ "Z"

example : render 1767225600000000 = "2026-01-01T00:00:00Z" := by decide
example : render 1767225600001000 = "2026-01-01T00:00:00.001Z" := by decide
example : render (-1) = "1969-12-31T23:59:59.999999Z" := by decide

end Timestamp

/-! ## Rankings

Rows in the order in which a query lists them.

* `sortBy`: a list sorted by a relation;
* `Stamp`, `newestFirst`: rows sorted by the time at which they were stored, the latest first; of
  rows from the same time, the one with the largest number first.
-/

/-- Put an element in front of the first that it precedes. -/
def insertBy {α : Type} (precedes : α → α → Bool) (a : α) : List α → List α
  | [] => [a]
  | b :: bs => if precedes a b then a :: b :: bs else b :: insertBy precedes a bs

/-- The list sorted by `precedes`. -/
def sortBy {α : Type} (precedes : α → α → Bool) : List α → List α
  | [] => []
  | a :: as => insertBy precedes a (sortBy precedes as)

/-- When a row was stored, and under which number. -/
structure Stamp where
  createdAt : Timestamp
  id : Int
  deriving DecidableEq, Repr

/-- The row of one stamp is listed before the row of another. -/
def Stamp.precedes (a b : Stamp) : Bool :=
  b.createdAt < a.createdAt || (a.createdAt == b.createdAt && b.id ≤ a.id)

/-- Rows by their stamps. -/
def newestFirst {ρ : Type} (stamp : ρ → Stamp) (rows : List ρ) : List ρ :=
  sortBy (fun a b => (stamp a).precedes (stamp b)) rows

/-! ## Rows

What the tables keep, and what is handed in to be kept.

* `Logline`, `SlugReservation`, `StoryPlan`, `BeatsSheet`: stored rows, each with its stamp;
* `NewLogline`, `NewStoryPlan`, `StoryPlanRevision`, `NewBeatsSheet`: rows to be stored. The slugs
  of loglines are free for each user to choose, those of story plans are shared by all.
-/

/-- A pitch of a story, kept by a user. -/
structure Logline where
  id : Int
  userId : Int
  slug : String
  name : String
  content : String
  createdAt : Timestamp
  deriving DecidableEq, Repr

/-- A slug that is taken by a story plan and all its iterations. -/
structure SlugReservation where
  id : Int
  slug : String
  createdAt : Timestamp
  deriving DecidableEq, Repr

/-- One iteration of a story plan. -/
structure StoryPlan where
  id : Int
  slug : String
  name : String
  description : Option String
  beats : List BeatDefinition
  createdAt : Timestamp
  deriving DecidableEq, Repr

/-- Beats written for a logline after an iteration of a story plan. -/
structure BeatsSheet where
  id : Int
  loglineId : Int
  storyPlanId : Int
  content : List Beat
  createdAt : Timestamp
  deriving DecidableEq, Repr

/-- The stamp of a logline. -/
def Logline.stamp (row : Logline) : Stamp := ⟨row.createdAt, row.id⟩

/-- The stamp of a reservation. -/
def SlugReservation.stamp (row : SlugReservation) : Stamp := ⟨row.createdAt, row.id⟩

/-- The stamp of an iteration. -/
def StoryPlan.stamp (row : StoryPlan) : Stamp := ⟨row.createdAt, row.id⟩

/-- The stamp of a sheet. -/
def BeatsSheet.stamp (row : BeatsSheet) : Stamp := ⟨row.createdAt, row.id⟩

/-! ### Rows to be stored -/

/-- A logline to be stored. -/
structure NewLogline where
  userId : Int
  slug : String
  name : String
  content : String
  deriving DecidableEq, Repr

/-- A story plan to be stored under a slug of its own. -/
structure NewStoryPlan where
  slug : String
  name : String
  description : Option String
  beats : List BeatDefinition
  deriving DecidableEq, Repr

/-- A further iteration of a story plan. -/
structure StoryPlanRevision where
  name : String
  description : Option String
  beats : List BeatDefinition
  deriving DecidableEq, Repr

/-- A beats sheet to be stored. -/
structure NewBeatsSheet where
  loglineId : Int
  storyPlanId : Int
  content : List Beat
  deriving DecidableEq, Repr

instance : Candidate NewLogline where
  slug d := d.slug
  withSlug d slug := { d with slug }
  scope d := .user d.userId

instance : Candidate NewStoryPlan where
  slug d := d.slug
  withSlug d slug := { d with slug }
  scope _ := .everywhere

/-- Without its slug, a story plan is an iteration. -/
def NewStoryPlan.revision (d : NewStoryPlan) : StoryPlanRevision :=
  ⟨d.name, d.description, d.beats⟩

end Storyline
