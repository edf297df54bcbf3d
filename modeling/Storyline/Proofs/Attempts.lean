import Storyline.Creation.Create
import Storyline.Proofs.Variant

/-!
# How creations end

* `ErrorKind`, `Error.kind`: an error without what it carries;
* `Ending`, `ending`: the end of a creation, as far as it is the same for all stores;
* `endings`: the ends of creations one after the other.
-/

namespace Storyline

/-- The kinds of errors, one for each cause. -/
inductive ErrorKind
  | unknownId
  | unknownSlug
  | slugTaken
  | nonconforming
  | unreadableSuffix
  | invalid
  | unauthorized
  | storeFailed
  | internal
  deriving DecidableEq, Repr

/-- The kind of an error. -/
def Error.kind : Error → ErrorKind
  | unknownId _ _ => .unknownId
  | unknownSlug _ _ => .unknownSlug
  | slugTaken _ _ => .slugTaken
  | nonconforming _ => .nonconforming
  | unreadableSuffix _ _ => .unreadableSuffix
  | invalid _ => .invalid
  | unauthorized _ => .unauthorized
  | storeFailed _ _ => .storeFailed
  | internal _ => .internal

theorem Error.isSlugTaken_iff {e : Error} : e.isSlugTaken = true ↔ e.kind = .slugTaken := by
  cases e <;> simp [isSlugTaken, kind]

/-- The end of a creation: the slug that it stored, or the step that failed with the kind of its
cause. -/
inductive Ending
  | stored (slug : String)
  | insertFailed (slug : String) (attempt : UInt32) (kind : ErrorKind)
  | resolveFailed (base : String) (kind : ErrorKind)
  | uncounted (base : String)
  deriving DecidableEq, Repr

/-- How a creation has ended, where `slug` is the slug of an entity. -/
def ending {ε : Type} (slug : ε → String) : Except CreationError ε → Ending
  | .ok entity => .stored (slug entity)
  | .error (.insert slug attempt cause) => .insertFailed slug attempt cause.kind
  | .error (.resolve base cause) => .resolveFailed base cause.kind
  | .error (.uncounted base) => .uncounted base

/-- How creations have ended that were run one after the other. -/
def endings {I : Interface} {σ ε : Type} (h : Prog.Handler I σ) (slug : ε → String) :
    List (Prog I (Except CreationError ε)) → σ → List Ending
  | [], _ => []
  | p :: ps, s => ending slug (p.run h s).1 :: endings h slug ps (p.run h s).2

/-! ## The steps of a creation

A creation goes back and forth between two calls: it stores the candidate, and where the slug is
taken it looks up the latest variant and goes on with the one after it.

* `nextNumber_some`, `nextVariant_ok`, `bind_nextVariant_ok`: which variant comes next;
* `afterInsert`, `afterLookup`: how a creation goes on after each of its calls, with
  `attemptFrom_eq` and one equation for each outcome of a lookup.
-/

/-! ### The variant that comes next -/

theorem nextNumber_some {base slug : String} {m : UInt32}
    (h : nextNumber base (some slug) = .ok m) :
    ∃ n : UInt32, Slug.number base slug = .ok n ∧ m.toNat = n.toNat + 1 := by
  simp only [nextNumber, storedNumber] at h
  cases hn : Slug.number base slug with
  | error fault => rw [hn] at h; simp [Except.mapError] at h
  | ok n =>
    rw [hn] at h
    simp only [Except.mapError] at h
    split at h
    · simp at h
    · next hmax =>
      refine ⟨n, rfl, ?_⟩
      rw [← Except.ok.inj h, UInt32.toNat_add]
      have := n.toNat_lt
      simp only [Slug.maxNumber, UInt32.size] at hmax
      have h1 : (1 : UInt32).toNat = 1 := rfl
      omega

theorem nextVariant_ok {base : String} {latest : Option String} {next : NumberedSlug}
    (h : nextVariant base latest = .ok next) : nextNumber base latest = .ok next.number ∧
      next.slug = Slug.variant base next.number ∧ Slug.check next.slug = .ok () := by
  simp only [nextVariant] at h
  split at h
  · simp at h
  · next n hn =>
    split at h
    · simp at h
    · next hc =>
      cases Except.ok.inj h
      exact ⟨hn, rfl, hc⟩

theorem bind_nextVariant_ok {base : String} {answer : Except Error (Option String)}
    {next : NumberedSlug} (h : answer.bind (nextVariant base) = .ok next) :
    ∃ latest, answer = .ok latest ∧ nextVariant base latest = .ok next := by
  cases answer with
  | error cause => cases h
  | ok latest => exact ⟨latest, rfl, h⟩

/-! ### How a creation goes on -/

theorem toNat_succ_attempt {attempt : UInt32} (h : attempt.toNat + 1 < UInt32.size) :
    (attempt + 1).toNat = attempt.toNat + 1 := by
  rw [UInt32.toNat_add]
  exact Nat.mod_eq_of_lt h

section Steps

variable {κ ε : Type} [Candidate κ] (base : String) (scope : Scope) (order : VariantOrder)

/-- A creation after its lookup: it stores the next variant, if there is one. -/
def afterLookup (retries : Nat) (attempt : UInt32) (candidate : κ)
    (latest : Except Error (Option String)) :
    Prog (CandidateStore κ ε) (Except CreationError ε) :=
  match latest.bind (nextVariant base) with
  | .error cause => .done (.error (.resolve base cause))
  | .ok next =>
    if attempt.toNat + 1 = UInt32.size then .done (.error (.uncounted base))
    else attemptFrom base scope order retries (attempt + 1) (Candidate.withSlug candidate next.slug)

theorem afterLookup_error (retries : Nat) (attempt : UInt32) (candidate : κ)
    {latest : Except Error (Option String)} {cause : Error}
    (h : latest.bind (nextVariant base) = .error cause) :
    afterLookup (ε := ε) base scope order retries attempt candidate latest =
      .done (.error (.resolve base cause)) := by
  simp only [afterLookup, h]

theorem afterLookup_ok (retries : Nat) {attempt : UInt32} (hsize : attempt.toNat + 1 < UInt32.size)
    (candidate : κ) {latest : Except Error (Option String)} {next : NumberedSlug}
    (h : latest.bind (nextVariant base) = .ok next) :
    afterLookup (ε := ε) base scope order retries attempt candidate latest =
      attemptFrom base scope order retries (attempt + 1)
        (Candidate.withSlug candidate next.slug) := by
  simp only [afterLookup, h, if_neg (Nat.ne_of_lt hsize)]

theorem afterLookup_uncounted (retries : Nat) {attempt : UInt32}
    (hsize : attempt.toNat + 1 = UInt32.size) (candidate : κ)
    {latest : Except Error (Option String)} {next : NumberedSlug}
    (h : latest.bind (nextVariant base) = .ok next) :
    afterLookup (ε := ε) base scope order retries attempt candidate latest =
      .done (.error (.uncounted base)) := by
  simp only [afterLookup, h, if_pos hsize]

/-- A creation after its insert: it has ended, unless the slug is taken and may be replaced. -/
def afterInsert (retries : Nat) (attempt : UInt32) (candidate : κ) (answer : Except Error ε) :
    Prog (CandidateStore κ ε) (Except CreationError ε) :=
  match answer with
  | .ok entity => .done (.ok entity)
  | .error e =>
    match retries with
    | 0 => .done (.error (.insert (Candidate.slug candidate) attempt e))
    | retries + 1 =>
      if e.isSlugTaken then
        .ask (.latest base scope order) (afterLookup base scope order retries attempt candidate)
      else .done (.error (.insert (Candidate.slug candidate) attempt e))

theorem afterInsert_taken (retries : Nat) (attempt : UInt32) (candidate : κ) {e : Error}
    (h : e.isSlugTaken = true) :
    afterInsert (ε := ε) base scope order (retries + 1) attempt candidate (.error e) =
      .ask (.latest base scope order) (afterLookup base scope order retries attempt candidate) := by
  simp only [afterInsert, h, if_true]

/-- A creation inserts, then goes on by the answer. -/
theorem attemptFrom_eq (retries : Nat) (attempt : UInt32) (candidate : κ) :
    attemptFrom (ε := ε) base scope order retries attempt candidate =
      .ask (.insert candidate) (afterInsert base scope order retries attempt candidate) := by
  cases retries with
  | zero =>
    rw [attemptFrom]
    congr 1
    funext answer
    cases answer <;> rfl
  | succ retries =>
    rw [attemptFrom]
    rfl

end Steps

end Storyline
