import Storyline.Proofs.Attempts
import Storyline.Proofs.Session

/-!
# Requests for loglines and story plans

A request to create something is checked first. What passes is created under a free slug, and the
ending of the creation is the answer.

* `ErrorKind.status`, `Ending.status`: the status that a creation is answered with, by its ending;
* `Loglines.requested`, `StoryPlans.requested`: what passes the checks, with
  `Loglines.status_create` and `StoryPlans.status_create`;
* `Denial.Early`: the statuses of what does not, with `Loglines.requested_early` and
  `StoryPlans.requested_early`.
-/

namespace Storyline

open Http

/-! ## Endings -/

/-- The status of an error of a kind. -/
def ErrorKind.status : ErrorKind → Nat
  | unknownId | unknownSlug => 404
  | slugTaken => 409
  | nonconforming => 422
  | invalid => 400
  | unauthorized => 401
  | unreadableSuffix | storeFailed | internal => 500

theorem Error.status_answer (e : Error) : e.answer.status = e.kind.status := by
  cases e <;> rfl

/-- The status that a creation is answered with. -/
def Ending.status : Ending → Nat
  | stored _ => 201
  | insertFailed _ _ kind | resolveFailed _ kind => kind.status
  | uncounted _ => 500

@[simp] theorem Ending.status_stored (slug : String) : (stored slug).status = 201 := rfl

@[simp] theorem Ending.status_insertFailed (slug : String) (attempt : UInt32) (kind : ErrorKind) :
    (insertFailed slug attempt kind).status = kind.status := rfl

@[simp] theorem Ending.status_resolveFailed (base : String) (kind : ErrorKind) :
    (resolveFailed base kind).status = kind.status := rfl

@[simp] theorem ErrorKind.status_slugTaken : slugTaken.status = 409 := rfl

theorem ErrorKind.eq_slugTaken_of_status {kind : ErrorKind} (h : kind.status = 409) :
    kind = .slugTaken := by
  cases kind with
  | slugTaken => rfl
  | _ => cases h

theorem status_creation {ε σ : Type} (slug : ε → String) (shown : ε → Json)
    (p : Prog TableStore (Except CreationError ε)) (h : Prog.Handler TableStore σ) (state : σ) :
    (Response.ofOutcome ((Action.ofProg (fun e => .refused (.creation e)) p >>= fun row =>
      pure (Reply.created (shown row))).run.run h state).1).status =
        (ending slug (p.run h state).1).status := by
  change (Response.ofOutcome ((Prog.bind (p.bind _) (ExceptT.bindCont _)).run h state).1).status = _
  rw [Prog.run_bind, Prog.run_bind]
  cases (p.run h state).1 with
  | ok row => rfl
  | error e =>
    cases e with
    | insert slug attempt cause => exact cause.status_answer
    | resolve base cause => exact cause.status_answer
    | uncounted base => rfl

/-! ## Admission -/

/-- The logline that a request asks for, if it passes all checks. -/
def Loglines.requested (r : Request) : Except Denial NewLogline := do
  let user ← callerOf r
  let input ← bodyOf LoglineInput.reader r
  (accept user input).mapError Error.denial

/-- The story plan that a request asks for, if it passes all checks. -/
def StoryPlans.requested (r : Request) : Except Denial NewStoryPlan := do
  let _ ← callerOf r
  let input ← bodyOf StoryPlanInput.reader r
  (accept input).mapError Error.denial

theorem Action.check_bind {α β : Type} (x : Except Denial α) (f : α → Except Denial β) :
    check (x >>= f) = check x >>= fun a => check (f a) := by
  cases x <;> rfl

theorem Loglines.create_eq (policy : RetryPolicy) (r : Request) : create policy r =
    Action.check (requested r) >>= fun row =>
      Action.createLogline policy row >>= fun logline => pure (.created logline.toJson) := by
  simp only [create, requested, Action.check_bind, bind_assoc]

theorem StoryPlans.create_eq (policy : RetryPolicy) (r : Request) : create policy r =
    Action.check (requested r) >>= fun row =>
      Action.createStoryPlan policy row >>= fun plan => pure (.created plan.toJson) := by
  simp only [create, requested, Action.check_bind, bind_assoc]

section Create

variable {s : Service} {w : Conditions} {r : Request} (hmethod : r.method = .post)
include hmethod

/-- **The status of a request for a logline** is that of the check that it fails, or tells how the
creation has ended. -/
theorem Loglines.status_create (hplace : Place.ofTarget? r.target = some .loglines) (x : Session) :
    (x.answer s w r).status = match requested r with
      | .error denial => denial.response.status
      | .ok row => (ending Logline.slug
          ((createLogline s.policy row).run (Database.under w)
            (x.tables, x.queries)).1).status := by
  have hoptions : r.method ≠ .options := by simp [hmethod]
  have haction : Place.loglines.action? s.policy r = some (create s.policy r) := by
    simp [Place.action?, hmethod]
  rw [Session.answer, status_serve hoptions hplace haction, create_eq]
  cases requested r with
  | error denial => rfl
  | ok row => exact status_creation Logline.slug Logline.toJson _ _ _

theorem StoryPlans.status_create (hplace : Place.ofTarget? r.target = some .plans) (x : Session) :
    (x.answer s w r).status = match requested r with
      | .error denial => denial.response.status
      | .ok row => (ending StoryPlan.slug
          ((createStoryPlan s.policy row).run (Database.under w)
            (x.tables, x.queries)).1).status := by
  have hoptions : r.method ≠ .options := by simp [hmethod]
  have haction : Place.plans.action? s.policy r = some (create s.policy r) := by
    simp [Place.action?, hmethod]
  rw [Session.answer, status_serve hoptions hplace haction, create_eq]
  cases requested r with
  | error denial => rfl
  | ok row => exact status_creation StoryPlan.slug StoryPlan.toJson _ _ _

end Create

/-! ## Requests that fail a check -/

/-- The statuses of requests that are denied before the tables are asked. -/
def Denial.Early (denial : Denial) : Prop := denial.response.status ∈ [400, 401, 413, 415, 422]

instance (denial : Denial) : Decidable denial.Early :=
  inferInstanceAs (Decidable (denial.response.status ∈ [400, 401, 413, 415, 422]))

theorem Error.early {e : Error} (h : e.kind = .invalid ∨ e.kind = .unauthorized) :
    e.denial.Early := by
  have hstatus : e.denial.response.status = e.kind.status := e.status_answer
  rw [Denial.Early, hstatus]
  rcases h with h | h
  · rw [h]
    decide
  · rw [h]
    decide

section Checks

variable {e : Error}

theorem caller_error {headers : List Header} (h : caller headers = .error e) :
    e.kind = .unauthorized := by
  unfold caller at h
  split at h
  · cases h
    rfl
  · split at h
    · split at h
      · cases h
      · cases h
        rfl
    · cases h
      rfl

theorem checkLengths_error {texts : List Measured} (h : checkLengths texts = .error e) :
    e.kind = .invalid := by
  unfold checkLengths at h
  split at h
  · cases h
  · cases h
    rfl

theorem checkedSlug_error {slug : String} (h : checkedSlug slug = .error e) :
    e.kind = .invalid := by
  unfold checkedSlug at h
  split at h
  · cases h
  · cases h
    rfl

theorem chosenSlug_error {slug : Option String} {name : String}
    (h : chosenSlug slug name = .error e) :
    e.kind = .invalid := by
  unfold chosenSlug at h
  split at h
  · exact checkedSlug_error h
  · split at h
    · cases h
      rfl
    · exact checkedSlug_error h

theorem checkBeats_error {beats : List BeatDefinition} (h : checkBeats beats = .error e) :
    e.kind = .invalid := by
  obtain ⟨fault, -, rfl⟩ := mapError_eq_error.mp h
  rfl

theorem Loglines.accept_error {user : Int} {input : LoglineInput}
    (h : accept user input = .error e) :
    e.kind = .invalid := by
  rcases bind_eq_error.mp h with h | ⟨_, -, h⟩
  · exact checkLengths_error h
  · rcases bind_eq_error.mp h with h | ⟨slug, -, h⟩
    · exact chosenSlug_error h
    · cases h

theorem StoryPlans.accept_error {input : StoryPlanInput} (h : accept input = .error e) :
    e.kind = .invalid := by
  rcases bind_eq_error.mp h with h | ⟨_, -, h⟩
  · exact checkLengths_error h
  · rcases bind_eq_error.mp h with h | ⟨_, -, h⟩
    · exact checkBeats_error h
    · rcases bind_eq_error.mp h with h | ⟨slug, -, h⟩
      · exact chosenSlug_error h
      · cases h

end Checks

section Denied

variable {r : Request} {denial : Denial}

theorem callerOf_early (h : callerOf r = .error denial) : denial.Early := by
  obtain ⟨e, he, rfl⟩ := mapError_eq_error.mp h
  exact Error.early (.inr (caller_error he))

theorem bodyOf_early {α : Type} {reader : Json.Reader α} (h : bodyOf reader r = .error denial) :
    denial.Early := by
  unfold bodyOf at h
  split at h
  · split at h
    · cases h
      decide
    · obtain ⟨fault, -, rfl⟩ := mapError_eq_error.mp h
      cases fault <;> decide
  · cases h
    decide

theorem Loglines.requested_early (h : requested r = .error denial) : denial.Early := by
  rcases bind_eq_error.mp h with h | ⟨user, -, h⟩
  · exact callerOf_early h
  · rcases bind_eq_error.mp h with h | ⟨input, -, h⟩
    · exact bodyOf_early h
    · obtain ⟨e, he, rfl⟩ := mapError_eq_error.mp h
      exact Error.early (.inl (accept_error he))

theorem StoryPlans.requested_early (h : requested r = .error denial) : denial.Early := by
  rcases bind_eq_error.mp h with h | ⟨user, -, h⟩
  · exact callerOf_early h
  · rcases bind_eq_error.mp h with h | ⟨input, -, h⟩
    · exact bodyOf_early h
    · obtain ⟨e, he, rfl⟩ := mapError_eq_error.mp h
      exact Error.early (.inl (accept_error he))

end Denied

end Storyline
