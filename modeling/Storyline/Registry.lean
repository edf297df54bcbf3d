import Storyline.Creation.Create
import Storyline.Slug

/-!
# A registry of slugs in memory

The smallest store of candidates: it keeps slugs with their scopes in the order in which they
came, and counts its calls. It can be set to report some slugs as taken that it does not show, and
to fail.

* `Registry`, `Registry.Entry`, `Registry.Entity`;
* `Registry.latest?`: the latest variant of a slug under either order;
* `Registry.handle`: the answers to the calls on it.
-/

namespace Storyline

namespace Registry

/-- A slug and where it counts; also the candidate for that row. -/
structure Entry where
  slug : String
  scope : Scope
  deriving DecidableEq, Repr

instance : Candidate Entry where
  slug e := e.slug
  withSlug e slug := { e with slug }
  scope e := e.scope

/-- A stored entry: its number among all rows, and its slug. -/
structure Entity where
  id : Nat
  slug : String
  deriving DecidableEq, Repr

end Registry

/-- Rows in the order in which they came, with the settings and the call counts of the store. -/
structure Registry where
  rows : List Registry.Entry := []
  /-- Slugs that no row shows and that are taken nevertheless, in every scope. -/
  hidden : List String := []
  lookupFails : Bool := false
  insertFails : Bool := false
  inserts : Nat := 0
  lookups : Nat := 0
  deriving DecidableEq, Repr

namespace Registry

/-- The name of the kept entities. -/
def entityName : String := "TestEntity"

/-- The slugs of a scope that are variants of `base`, each with its digits, oldest first. -/
def variants (rows : List Entry) (base : String) (scope : Scope) : List (String × List Char) :=
  (rows.filter (·.scope = scope)).filterMap fun row =>
    (Slug.suffix? base row.slug).map fun digits => (row.slug, digits)

/-- The largest number that suffixes are told apart by. -/
def suffixCap : Nat := 0xFFFFFFFFFFFFFFFFFFFFFFFFFFFFFFFF

/-- The number of a variant; those above the cap count as the cap. -/
def rank (variant : String × List Char) : Nat := min (Slug.suffixValue variant.2) suffixCap

/-- An element with the largest value, the first of several. -/
def firstMax {α : Type} (f : α → Nat) : List α → Option α
  | [] => none
  | x :: xs =>
    match firstMax f xs with
    | none => some x
    | some y => if f y ≤ f x then some x else some y

/-- The slug of the variant of `base` that is the latest in `order`. -/
def latest? (rows : List Entry) (base : String) (scope : Scope) : VariantOrder → Option String
  | .newest => (variants rows base scope).getLast?.map Prod.fst
  | .highest => (firstMax rank (variants rows base scope)).map Prod.fst

/-- Whether an entry's slug is taken in its scope. -/
def taken (r : Registry) (e : Entry) : Bool := r.hidden.contains e.slug || r.rows.contains e

/-- The error of a registry that does not store. -/
def insertFailure : Error := .storeFailed "insert test entity" (some "disk full")

/-- The error of a registry that does not look up. -/
def lookupFailure : Error := .storeFailed "find latest variant" (some "connection reset")

/-- The registry's answer to a call, and the registry afterwards. -/
def handle : Prog.Handler (CandidateStore Entry Entity) Registry
  | .insert e, r =>
    let counted := { r with inserts := r.inserts + 1 }
    if r.insertFails then (.error insertFailure, counted)
    else if r.taken e then (.error (.slugTaken entityName e.slug), counted)
    else (.ok ⟨r.rows.length + 1, e.slug⟩, { counted with rows := r.rows ++ [e] })
  | .latest base scope order, r =>
    let counted := { r with lookups := r.lookups + 1 }
    if r.lookupFails then (.error lookupFailure, counted)
    else (.ok (latest? r.rows base scope order), counted)

end Registry

end Storyline
