import Storyline.Proofs.Dangling
import Storyline.Proofs.Throughout
import Storyline.Service.Input

/-!
# What failures tell

A failure of the service itself is answered in one way, whatever has failed and wherever. The step
of a creation at which an error comes up leaves no trace in the answer.

* `Error.IsInternal`, `Failure.IsInternal`, `Refusal.IsInternal`: the failures of the service
  itself, by cause;
* `Refusal.answer_of_isInternal`, `Refusal.isInternal_of_status`: their answer, and that its status
  is theirs alone;
* **`failures_sealed`**: creations are answered by their causes, and failures of the service all
  alike.
-/

namespace Storyline

/-! ## Failures of the service -/

/-- The error is not the caller's. -/
inductive Error.IsInternal : Error → Prop
  | unreadableSuffix (slug : String) (fault : Numeral.Fault) :
      IsInternal (.unreadableSuffix slug fault)
  | storeFailed (context : String) (detail : Option String) :
      IsInternal (.storeFailed context detail)
  | internal (message : String) : IsInternal (.internal message)

/-- The query fails, but not for want of a row, nor for a value that exists already under a
constraint of the service's own. -/
def Failure.IsInternal (f : Failure) : Prop :=
  f ≠ .noRow ∧ ∀ name message, f = .refused "23505" (some name) message →
    ¬"uq_".toList <+: name.toList

/-- The refusal is due to a failure of the service itself, in a creation or elsewhere. -/
inductive Refusal.IsInternal : Refusal → Prop
  | error {e : Error} (h : e.IsInternal) : IsInternal (.error e)
  | creation {e : CreationError} (h : e.cause.IsInternal) : IsInternal (.creation e)
  | failure {f : Failure} (h : f.IsInternal) : IsInternal (.failure f)

/-! ## Their answer -/

theorem Error.answer_of_isInternal {e : Error} (h : e.IsInternal) : e.answer = .internal := by
  cases h <;> rfl

theorem Error.isInternal_of_status {e : Error} (h : e.answer.status = 500) : e.IsInternal := by
  cases e with
  | unreadableSuffix slug fault => exact .unreadableSuffix slug fault
  | storeFailed context detail => exact .storeFailed context detail
  | internal message => exact .internal message
  | _ => simp [answer] at h

theorem Failure.answer_refused (code : String) (constraint : Option String) (message : String) :
    (refused code constraint message).answer =
      let name := constraint.getD "unknown"
      if code = "23505" ∧ "uq_".toList <+: name.toList then
        ⟨409, "CONFLICT", s!"Duplicate value violates unique constraint: {name}"⟩
      else .internal := by
  simp [answer, isDuplicate, duplicateCode]

theorem Failure.answer_of_isInternal {f : Failure} (h : f.IsInternal) : f.answer = .internal := by
  cases f with
  | noRow => exact absurd rfl h.1
  | closed => rfl
  | other message => rfl
  | refused code constraint message =>
    rw [answer_refused, if_neg]
    rintro ⟨rfl, hname⟩
    cases constraint with
    | none => exact absurd hname (by decide)
    | some name => exact h.2 name message rfl hname

theorem Failure.isInternal_of_status {f : Failure} (h : f.answer.status = 500) : f.IsInternal := by
  constructor
  · rintro rfl
    cases h
  · rintro name message rfl hname
    rw [answer_refused, if_pos ⟨rfl, hname⟩] at h
    cases h

theorem Refusal.answer_of_isInternal {r : Refusal} (h : r.IsInternal) : r.answer = .internal := by
  cases h with
  | error h => exact Error.answer_of_isInternal h
  | creation h => exact Error.answer_of_isInternal h
  | failure h => exact Failure.answer_of_isInternal h

theorem Refusal.isInternal_of_status {r : Refusal} (h : r.answer.status = 500) : r.IsInternal := by
  cases r with
  | error e => exact .error (Error.isInternal_of_status h)
  | creation e => exact .creation (Error.isInternal_of_status h)
  | failure f => exact .failure (Failure.isInternal_of_status h)
  | badRequest message => cases h

/-- **Failures of the service tell nothing about themselves.** A creation is answered by its cause,
whatever slug it was about and whichever attempt it was. Status 500 is the answer to unreadable
suffixes, failures of the store and broken rules of the service, in a creation or not, and to every
failure of the tables but a missing row and a duplicate under a constraint of the service's own. Any
two answers with this status are the same. -/
theorem failures_sealed :
    (∀ e base slug attempt,
      (Denial.refused (.creation (.insert slug attempt e))).response =
        (Denial.refused (.error e)).response ∧
      (Denial.refused (.creation (.resolve base e))).response =
        (Denial.refused (.error e)).response) ∧
    (∀ r : Refusal, (Denial.refused r).response.status = 500 ↔ r.IsInternal) ∧
    ∀ r r' : Refusal, (Denial.refused r).response.status = 500 →
      (Denial.refused r').response.status = 500 →
      (Denial.refused r).response = (Denial.refused r').response := by
  refine ⟨fun e base slug attempt => ⟨rfl, rfl⟩, fun r =>
    ⟨Refusal.isInternal_of_status, fun h => ?_⟩, ?_⟩
  · exact congrArg RefusalAnswer.status (Refusal.answer_of_isInternal h)
  · intro r r' h h'
    have hanswer : r.answer = r'.answer := by
      rw [Refusal.answer_of_isInternal (Refusal.isInternal_of_status h),
        Refusal.answer_of_isInternal (Refusal.isInternal_of_status h')]
    rw [Denial.response, Denial.response, hanswer]

/-- A suffix out of range and a number of a row used twice look the same. -/
theorem failures_sealed_suffix :
    (Denial.refused
      (.creation (.resolve "hero" (.unreadableSuffix "hero-99999999999" .tooLarge)))).response =
      (Denial.refused
        (.failure (.refused "23505" (some "loglines_pkey") "duplicate key"))).response :=
  failures_sealed.2.2 _ _ rfl (by decide)

/-! ## Duplicates

A failed insert is read twice: a creation asks whether it tells of a taken slug, and elsewhere it is
asked whether it is a conflict. The creation looks at the code only, elsewhere the constraint counts
as well.

* `Failure.IsConflict`, `CreationError.IsConflict`: the two readings, with `Failure.conflict_iff`
  and `CreationError.conflict_iff`;
* `Database.conflict_of_duplicate`: the tables tell of duplicates under the service's own
  constraints only;
* `SettlesInserts`, `FollowsUp`: which failed inserts a creation follows up;
* **`conflicts_compared`**, with `not_conflicts_alike`.
-/

/-! ### Two readings of a failure -/

/-- The failure is answered as a conflict. -/
def Failure.IsConflict (f : Failure) : Prop := (Denial.refused (.failure f)).response.status = 409

/-- The failure of a creation is answered as a conflict. -/
def CreationError.IsConflict (e : CreationError) : Prop :=
  (Denial.refused (.creation e)).response.status = 409

section Readings

variable {entity slug : String} {attempt : UInt32} {f : Failure}

theorem Failure.isDuplicate_iff :
    f.isDuplicate = true ↔ ∃ constraint message, f = .refused "23505" constraint message := by
  cases f <;> simp [isDuplicate, duplicateCode]

theorem Failure.conflict_iff : f.IsConflict ↔
    ∃ name message, f = .refused "23505" (some name) message ∧ "uq_".toList <+: name.toList := by
  change f.answer.status = 409 ↔ _
  constructor
  · intro h
    cases f with
    | refused code constraint message =>
      by_cases hown : code = "23505" ∧ "uq_".toList <+: (constraint.getD "unknown").toList
      · obtain ⟨rfl, hname⟩ := hown
        cases constraint with
        | none => exact absurd hname (by decide)
        | some name => exact ⟨name, message, rfl, hname⟩
      · rw [answer_refused, if_neg hown] at h
        cases h
    | _ => cases h
  · rintro ⟨name, message, rfl, hname⟩
    rw [answer_refused, if_pos ⟨rfl, hname⟩]

theorem Failure.IsConflict.isDuplicate (h : f.IsConflict) : f.isDuplicate = true := by
  obtain ⟨name, message, rfl, -⟩ := conflict_iff.mp h
  rfl

theorem CreationError.conflict_iff :
    (insert slug attempt (insertError entity slug f)).IsConflict ↔ f.isDuplicate = true := by
  change (insertError entity slug f).answer.status = 409 ↔ _
  unfold insertError
  split_ifs with h <;> simp [h, Error.answer, RefusalAnswer.internal]

end Readings

/-- **A duplicate that the tables tell of** is one under a constraint of the service's own. -/
theorem Database.conflict_of_duplicate {q : Query} (hq : q.stores = true) {t : Tables}
    {now : Timestamp} {f : Failure} (h : (handle q ⟨t, now, []⟩).1 = .error f)
    (hf : f.isDuplicate = true) : f.IsConflict := by
  cases htexts : q.texts.any holdsNul with
  | true =>
    rcases @handle_unstorable t now q htexts with ⟨f', hf', rfl | rfl⟩ | ⟨d, -, -, he⟩
    · cases h.symm.trans hf'
      cases hf
    · cases h.symm.trans hf'
      cases hf
    · cases h.symm.trans he
      exact Failure.conflict_iff.mpr ⟨_, _, rfl, by decide⟩
  | false =>
    rcases @handle_storable t now q hq htexts with ⟨result, he⟩ | ⟨constraint, he, hown⟩ |
      ⟨constraint, he⟩
    · cases h.symm.trans he
    · cases h.symm.trans he
      exact Failure.conflict_iff.mpr ⟨_, _, rfl, hown⟩
    · cases h.symm.trans he
      cases hf

/-! ### Creations -/

section Creations

variable {ε : Type}

/-- After an insert that has failed, the creation ends with a conflict or goes on with a query that
reads if the failure is a duplicate, under whichever constraint. Otherwise it ends, and not with a
conflict. -/
def SettlesInserts (p : Prog TableStore (Except CreationError ε)) : Prop :=
  p.Throughout (I := TableStore) fun (q : Query) k => q.stores = true → ∀ f : Failure,
    (f.isDuplicate = true → (∃ e : CreationError, k (.error f) = .done (.error e) ∧ e.IsConflict) ∨
      ∃ (q' : Query) (k' : _), q'.stores = false ∧ k (.error f) = .ask q' k') ∧
    (f.isDuplicate = false → ∃ e : CreationError, k (.error f) = .done (.error e) ∧ ¬e.IsConflict)

/-- The creation first makes the one query, and after a duplicate, under whichever constraint, the
other. -/
def FollowsUp (insert lookup : Query) (p : Prog TableStore (Except CreationError ε)) : Prop :=
  ∃ k, p = .ask insert k ∧ ∀ f : Failure, f.isDuplicate = true → ∃ k', k (.error f) = .ask lookup k'

theorem AfterInsert.settles {lookup : Prog TableStore (Except Error (Option String))}
    {entity slug : String} {k : Except Error ε → Prog TableStore (Except CreationError ε)}
    (h : AfterInsert lookup slug k) {q : Query}
    {next : Except Failure q.Result → Prog TableStore (Except Error (Option String))}
    (hlookup : lookup = .ask q next) (hq : q.stores = false) (f : Failure) :
    (f.isDuplicate = true → (∃ e, k (.error (insertError entity slug f)) = .done (.error e) ∧
      e.IsConflict) ∨
      ∃ (q' : Query) (k' : _), q'.stores = false ∧ k (.error (insertError entity slug f)) =
        .ask q' k') ∧
    (f.isDuplicate = false → ∃ e, k (.error (insertError entity slug f)) = .done (.error e) ∧
      ¬e.IsConflict) := by
  constructor
  · intro hf
    rcases h.taken _ (insertError_isSlugTaken.trans hf) with ⟨attempt, hend⟩ | ⟨k', hnext⟩
    · exact .inl ⟨_, hend, CreationError.conflict_iff.mpr hf⟩
    · rw [hlookup] at hnext
      exact .inr ⟨q, _, hq, hnext⟩
  · intro hf
    obtain ⟨attempt, hend⟩ := h.failed _ (insertError_isSlugTaken.trans hf)
    exact ⟨_, hend,
      fun hconflict => by cases hf.symm.trans (CreationError.conflict_iff.mp hconflict)⟩

theorem settlesInserts_createLogline (policy : RetryPolicy) (row : NewLogline) :
    SettlesInserts (createLogline policy row) := by
  refine throughout_attemptFrom loglineIntake (fun d k hk hanswers => ?_)
    (fun k hanswers => ?_) _ _ _
  · exact ⟨fun _ f => hk.settles rfl rfl f, fun answer => hanswers _⟩
  · exact ⟨nofun, fun answer => hanswers _⟩

theorem settlesInserts_createStoryPlan (policy : RetryPolicy) (row : NewStoryPlan) :
    SettlesInserts (createStoryPlan policy row) := by
  refine throughout_attemptFrom storyPlanIntake (fun d k hk hanswers => ?_)
    (fun k hanswers => ?_) _ _ _
  · exact ⟨fun _ f => hk.settles rfl rfl f, fun answer => hanswers _⟩
  · exact ⟨nofun, fun answer => hanswers _⟩

section FollowsUp

variable {policy : RetryPolicy} (hpolicy : policy.retries ≠ 0)
include hpolicy

theorem exists_retries : ∃ n, policy.retries.toNat = n + 1 :=
  Nat.exists_eq_succ_of_ne_zero fun h => hpolicy (UInt32.toNat_inj.mp h)

theorem followsUp_createLogline (row : NewLogline) :
    FollowsUp (.insertLogline row) (.latestLogline row.userId row.slug policy.order)
      (createLogline policy row) := by
  obtain ⟨n, hn⟩ := exists_retries hpolicy
  rw [createLogline, create, hn, attemptFrom_eq]
  refine ⟨_, rfl, fun f hf => ?_⟩
  change ∃ k', Prog.interpret loglineIntake
    (afterInsert _ _ _ _ _ _ (.error (insertError "Logline" row.slug f))) = .ask _ k'
  rw [afterInsert_taken _ _ _ _ _ _ (insertError_isSlugTaken.trans hf)]
  exact ⟨_, rfl⟩

theorem followsUp_createStoryPlan (row : NewStoryPlan) :
    FollowsUp (.createPlan row) (.latestPlan row.slug policy.order)
      (createStoryPlan policy row) := by
  obtain ⟨n, hn⟩ := exists_retries hpolicy
  rw [createStoryPlan, create, hn, attemptFrom_eq]
  refine ⟨_, rfl, fun f hf => ?_⟩
  change ∃ k', Prog.interpret storyPlanIntake
    (afterInsert _ _ _ _ _ _ (.error (insertError "StoryPlan" row.slug f))) = .ask _ k'
  rw [afterInsert_taken _ _ _ _ _ _ (insertError_isSlugTaken.trans hf)]
  exact ⟨_, rfl⟩

end FollowsUp

end Creations

/-! ### The two compared -/

/-- **What counts as a conflict.** In a creation every failure with the code of a duplicate does,
and elsewhere only one under a constraint of the service's own. The two agree unless the duplicate
is under another constraint or none, and so on all failures that the tables come up with by
themselves. A creation ends at a failed insert that is no duplicate, and not with a conflict; after
a duplicate, under whichever constraint, it looks for another slug if a retry is left. -/
theorem conflicts_compared (f : Failure) (policy : RetryPolicy) (logline : NewLogline)
    (plan : NewStoryPlan) :
    (∀ entity slug attempt,
      (CreationError.insert slug attempt (insertError entity slug f)).IsConflict ↔
      ∃ constraint message, f = .refused "23505" constraint message) ∧
    (f.IsConflict ↔ ∃ name message, f = .refused "23505" (some name) message ∧
      "uq_".toList <+: name.toList) ∧
    (∀ entity slug attempt,
      ((CreationError.insert slug attempt (insertError entity slug f)).IsConflict ↔ f.IsConflict) ↔
        ∀ constraint message, f = .refused "23505" constraint message →
          ∃ name, constraint = some name ∧ "uq_".toList <+: name.toList) ∧
    (∀ (q : Query) (t : Tables) (now : Timestamp), q.stores = true →
      (Database.handle q ⟨t, now, []⟩).1 = .error f →
      ∀ entity slug attempt,
        (CreationError.insert slug attempt (insertError entity slug f)).IsConflict ↔ f.IsConflict) ∧
    SettlesInserts (createLogline policy logline) ∧ SettlesInserts (createStoryPlan policy plan) ∧
    (policy.retries ≠ 0 →
      FollowsUp (.insertLogline logline) (.latestLogline logline.userId logline.slug policy.order)
        (createLogline policy logline) ∧
      FollowsUp (.createPlan plan) (.latestPlan plan.slug policy.order)
        (createStoryPlan policy plan)) := by
  refine ⟨fun entity slug attempt => ?_, Failure.conflict_iff, fun entity slug attempt => ?_,
    fun q t now hq h entity slug attempt => ?_, settlesInserts_createLogline policy logline,
    settlesInserts_createStoryPlan policy plan,
    fun hpolicy => ⟨followsUp_createLogline hpolicy logline,
      followsUp_createStoryPlan hpolicy plan⟩⟩
  · rw [CreationError.conflict_iff, Failure.isDuplicate_iff]
  · rw [CreationError.conflict_iff, Failure.isDuplicate_iff, Failure.conflict_iff]
    constructor
    · rintro h constraint message rfl
      obtain ⟨name, _, hf, hname⟩ := h.mp ⟨constraint, message, rfl⟩
      obtain ⟨-, hconstraint, -⟩ := Failure.refused.inj hf
      exact ⟨name, hconstraint, hname⟩
    · refine fun h => ⟨?_, fun ⟨name, message, hf, _⟩ => ⟨some name, message, hf⟩⟩
      rintro ⟨constraint, message, rfl⟩
      obtain ⟨name, rfl, hname⟩ := h constraint message rfl
      exact ⟨name, message, rfl, hname⟩
  · rw [CreationError.conflict_iff]
    exact ⟨Database.conflict_of_duplicate hq h, Failure.IsConflict.isDuplicate⟩

/-- The number of a row is used twice, two times in a row: the creation takes both for taken
slugs. -/
theorem not_conflicts_alike :
    let f : Failure := .refused "23505" (some "loglines_pkey") "outage"
    let e : CreationError := .insert "hero-1" 2 (insertError "Logline" "hero-1" f)
    let db : Database :=
      { now := 0, outages := [⟨.insertLogline, "23505", some "loglines_pkey", 0, 2⟩] }
    ((createLogline {} ⟨1, "hero", "N", "c"⟩).run Database.handle db).1 = .error e ∧ e.IsConflict ∧
      ¬f.IsConflict := by
  intro f e db
  refine ⟨by decide +kernel, CreationError.conflict_iff.mpr rfl, fun h => ?_⟩
  obtain ⟨name, message, he, hown⟩ := Failure.conflict_iff.mp h
  obtain ⟨-, hname, -⟩ := Failure.refused.inj he
  rw [← Option.some.inj hname] at hown
  exact absurd hown (by decide)

end Storyline
