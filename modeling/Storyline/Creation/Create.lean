import Storyline.Prog
import Storyline.Slug
import Storyline.Text

/-!
# Creation

An entity that asks for a slug is stored under it, or under the next free variant. What can go wrong
on the way, the policy that bounds the attempts, the store as an interface, and the program.
-/

/-! ## Errors

What can go wrong below the addresses of the service, by cause.

* `Error`: the causes;
* `Error.message`: each in words.
-/

namespace Storyline

/-- Why a request or a call on a store fails. -/
inductive Error
  /-- No row of the entity has the id. -/
  | unknownId (entity : String) (id : Int)
  /-- No row of the entity has the slug. -/
  | unknownSlug (entity slug : String)
  /-- The slug is taken in its scope. -/
  | slugTaken (entity slug : String)
  /-- Beats do not follow the plan. -/
  | nonconforming (message : String)
  /-- A stored variant of a slug does not end in a number that can be counted on from. -/
  | unreadableSuffix (slug : String) (fault : Numeral.Fault)
  /-- The input breaks a rule. -/
  | invalid (message : String)
  /-- The caller is not known. -/
  | unauthorized (message : String)
  /-- The store failed; the detail is what it says about itself, where it says anything. -/
  | storeFailed (context : String) (detail : Option String)
  /-- A rule of the service itself is broken. -/
  | internal (message : String)
  deriving DecidableEq, Repr

namespace Error

/-- The error in words. -/
def message : Error → String
  | unknownId entity id => s!"Entity not found: {entity} with id {id}"
  | unknownSlug entity slug => s!"Entity not found: {entity} with slug '{slug}'"
  | slugTaken entity slug => s!"{entity} with slug '{slug}' already exists"
  | nonconforming text => s!"Invalid story plan: {text}"
  | unreadableSuffix slug _ => s!"Stored slug '{slug}' has a non-numeric iteration suffix"
  | invalid text => s!"Validation failed: {text}"
  | unauthorized text => s!"Unauthorized: {text}"
  | storeFailed context none => context
  | storeFailed context (some detail) => s!"{context}: {detail}"
  | internal text => s!"Internal error: {text}"

/-- The error tells of a taken slug. -/
def isSlugTaken : Error → Bool
  | slugTaken _ _ => true
  | _ => false

end Error

/-! ## Policies for taken slugs

* `VariantOrder`: which of the stored variants of a slug the next number is counted on from;
* `RetryPolicy`: how often a taken slug is replaced by a variant.
-/

/-- The variant that counts as the latest. -/
inductive VariantOrder
  /-- The one stored last. -/
  | newest
  /-- The one with the largest number. -/
  | highest
  deriving DecidableEq, Repr, Inhabited

namespace VariantOrder

/-- The name of an order. -/
def name : VariantOrder → String
  | newest => "latest_created"
  | highest => "highest_suffix"

/-- The order of a name. -/
def ofName (text : String) : Except Error VariantOrder :=
  if text = newest.name then .ok newest
  else if text = highest.name then .ok highest
  else
    .error (.invalid (s!"unknown slug iteration order '{text}' " ++
      "(expected latest_created or highest_suffix)"))

theorem ofName_name (order : VariantOrder) : ofName order.name = .ok order := by
  cases order <;> rfl

end VariantOrder

/-- What is done about a taken slug: up to `retries` variants are tried, each counted on from the
variant that is the latest in `order`. -/
structure RetryPolicy where
  retries : UInt32 := 1
  order : VariantOrder := .newest
  deriving DecidableEq, Repr, Inhabited

/-! ## Candidates and the stores that take them

A candidate is an entity that is not stored yet: it asks for a slug, which has to be free in the
candidate's scope.

* `Scope`, `Candidate`: what a candidate asks for;
* `CandidateStore`: the two calls on a store of candidates, as an interface for programs.
-/

/-- Where a slug has to be unique. -/
inductive Scope
  /-- Among the entities of one user. -/
  | user (id : Int)
  /-- Among all entities. -/
  | everywhere
  deriving DecidableEq, Repr, Inhabited

/-- Entities to be stored under a slug. -/
class Candidate (κ : Type) where
  slug : κ → String
  withSlug : κ → String → κ
  scope : κ → Scope

/-- The calls on a store of candidates: store one, or look up which stored variant of a base slug
is the latest. -/
inductive CandidateCall (κ : Type)
  | insert (candidate : κ)
  | latest (base : String) (scope : Scope) (order : VariantOrder)

/-- Storing answers the entity; looking up answers the slug of the latest variant, if there is
any. -/
abbrev CandidateCall.Answer {κ : Type} (ε : Type) : CandidateCall κ → Type
  | .insert _ => Except Error ε
  | .latest _ _ _ => Except Error (Option String)

/-- Stores that take candidates `κ` and keep entities `ε`. -/
abbrev CandidateStore (κ ε : Type) : Interface := ⟨CandidateCall κ, CandidateCall.Answer ε⟩

/-! ## The next variant of a slug

* `storedNumber`: the number of a stored variant;
* `nextVariant`: the variant that follows the latest one stored;
* `resolve`: the same, for the latest one that a store reports. The slug found is a proposal only,
  for the store may take it before it is used.
-/

/-- A variant of a slug with its number. -/
structure NumberedSlug where
  slug : String
  number : UInt32
  deriving DecidableEq, Repr

/-- The number of a stored variant of `base`. -/
def storedNumber (base slug : String) : Except Error UInt32 :=
  (Slug.number base slug).mapError (.unreadableSuffix slug)

/-- The number after that of the latest variant of `base`; 1 if there is none. -/
def nextNumber (base : String) : Option String → Except Error UInt32
  | none => .ok 1
  | some slug =>
    match storedNumber base slug with
    | .error e => .error e
    | .ok n =>
      if n.toNat = Slug.maxNumber then
        .error (.internal s!"slug iteration overflow for '{slug}'")
      else .ok (n + 1)

/-- The variant after the latest one of `base`, which has to be a slug itself. -/
def nextVariant (base : String) (latest : Option String) : Except Error NumberedSlug :=
  match nextNumber base latest with
  | .error e => .error e
  | .ok n =>
    match Slug.check (Slug.variant base n) with
    | .error fault => .error (.invalid fault.message)
    | .ok () => .ok ⟨Slug.variant base n, n⟩

/-- Ask the store for the latest variant and take the one after it. -/
def resolve {κ ε : Type} (base : String) (scope : Scope) (order : VariantOrder) :
    Prog (CandidateStore κ ε) (Except Error NumberedSlug) :=
  .ask (.latest base scope order) fun (latest : Except Error (Option String)) =>
    .done (latest.bind (nextVariant base))

/-! ## Creation under a free slug

A candidate is first stored under the slug it asks for. If that is taken, the next variant of the
slug asked for is resolved and tried, as often as the policy allows. A conflict at the last attempt
is reported, and no other failure is tried again.

* `CreationError`: the step that failed, with its cause;
* `create`: the program that stores a candidate.
-/

/-- The step at which a creation failed. -/
inductive CreationError
  /-- Storing under `slug` failed, at the given attempt. -/
  | insert (slug : String) (attempt : UInt32) (cause : Error)
  /-- No further variant of `base` could be resolved. -/
  | resolve (base : String) (cause : Error)
  /-- The next attempt has no number: attempts are counted with 32 bits. -/
  | uncounted (base : String)
  deriving DecidableEq, Repr

namespace CreationError

/-- The cause of the failure. -/
def cause : CreationError → Error
  | insert _ _ cause => cause
  | resolve _ cause => cause
  | uncounted base => .internal s!"too many attempts for slug '{base}'"

/-- The failure in words; its cause has words of its own. -/
def message : CreationError → String
  | insert slug attempt _ => s!"insert with slug '{slug}' failed on attempt {attempt}"
  | resolve base _ => s!"resolving the next iteration of slug '{base}' failed"
  | uncounted base => s!"counting the attempts for slug '{base}' failed"

end CreationError

variable {κ ε : Type} [Candidate κ]

/-- Store `candidate`, with `retries` further attempts if its slug is taken. Each further attempt
is made under a variant of `base`. -/
def attemptFrom (base : String) (scope : Scope) (order : VariantOrder) :
    (retries : Nat) → (attempt : UInt32) → κ →
      Prog (CandidateStore κ ε) (Except CreationError ε)
  | 0, attempt, candidate =>
    .ask (.insert candidate) fun (answer : Except Error ε) =>
      .done (answer.mapError (.insert (Candidate.slug candidate) attempt))
  | retries + 1, attempt, candidate =>
    .ask (.insert candidate) fun (answer : Except Error ε) =>
      match answer with
      | .ok entity => .done (.ok entity)
      | .error e =>
        if e.isSlugTaken then
          (resolve base scope order).bind fun
            | .error cause => .done (.error (.resolve base cause))
            | .ok next =>
              if attempt.toNat + 1 = UInt32.size then .done (.error (.uncounted base))
              else attemptFrom base scope order retries (attempt + 1)
                (Candidate.withSlug candidate next.slug)
        else .done (.error (.insert (Candidate.slug candidate) attempt e))

/-- Store a candidate under its slug or, as far as the policy allows, under a variant of it. -/
def create (policy : RetryPolicy) (candidate : κ) :
    Prog (CandidateStore κ ε) (Except CreationError ε) :=
  attemptFrom (Candidate.slug candidate) (Candidate.scope candidate) policy.order
    policy.retries.toNat 1 candidate

end Storyline
