import Storyline.Proofs.Admission

/-!
# Denials

How a request may be denied, whatever it is told by the tables.

* `idOf_early`, `slugOf_early`, `checkContent_early`, `checkRevision_early`: further checks before
  the tables;
* `Action.Denies`, with a rule for each step of an action;
* `Denial.Scoped`: the denial is not due to a lookup of loglines without their user, with
  `Place.denies`.
-/

namespace Storyline

open Http

/-! ## Checks -/

theorem idOf_early {segment : List Char} {denial : Denial} (h : idOf segment = .error denial) :
    denial.Early := by
  unfold idOf at h
  split at h
  · cases h
    decide
  · split at h
    · cases h
    · cases h
      exact List.mem_cons_self

theorem checkContent_early {content : List Beat} {definitions : List BeatDefinition}
    {denial : Denial}
    (h : (checkContent content definitions).mapError Error.denial = .error denial) :
    denial.Early := by
  obtain ⟨e, he, rfl⟩ := mapError_eq_error.mp h
  obtain ⟨deviation, -, rfl⟩ := mapError_eq_error.mp he
  change 422 ∈ [400, 401, 413, 415, 422]
  decide

theorem slugOf_early {segment : List Char} {denial : Denial} (h : slugOf segment = .error denial) :
    denial.Early := by
  unfold slugOf at h
  split at h
  · cases h
  · cases h
    decide

theorem checkRevision_early {d : StoryPlanRevision} {denial : Denial}
    (h : (StoryPlans.checkRevision d).mapError Error.denial = .error denial) : denial.Early := by
  obtain ⟨e, he, rfl⟩ := mapError_eq_error.mp h
  rcases bind_eq_error.mp he with he | ⟨_, -, he⟩
  · exact Error.early (.inl (checkLengths_error he))
  · exact Error.early (.inl (checkBeats_error he))

/-! ## Actions and their denials -/

theorem Prog.Ends.bind {I : Interface} {α β : Type} {P : α → Prop} {Q : β → Prop} {p : Prog I α}
    {f : α → Prog I β} (h : p.Ends P) (hf : ∀ a, P a → (f a).Ends Q) : (p.bind f).Ends Q := by
  induction p with
  | done a => exact hf a h
  | ask c k ih => exact fun answer => ih answer (h answer)

namespace Action

variable {α β : Type}

/-- Whatever it is told, the action is denied only with `D`. -/
def Denies (D : Denial → Prop) (x : Action α) : Prop :=
  Prog.Ends (fun r => ∀ denial, r = .error denial → D denial) x.run

variable {D : Denial → Prop}

theorem Denies.bind {x : Action α} {f : α → Action β} (h : x.Denies D) (hf : ∀ a, (f a).Denies D) :
    (x >>= f).Denies D := by
  refine Prog.Ends.bind (f := ExceptT.bindCont f) h fun r hr => ?_
  cases r with
  | error denial =>
    intro denial' hdenial
    cases hdenial
    exact hr denial rfl
  | ok a => exact hf a

theorem denies_pure (a : α) : (pure a : Action α).Denies D := nofun

theorem denies_check {r : Except Denial α} (h : ∀ denial, r = .error denial → D denial) :
    (check r).Denies D :=
  h

theorem denies_found {e : Error} (h : D e.denial) (o : Option α) : (found e o).Denies D := by
  cases o with
  | none =>
    intro denial hdenial
    cases hdenial
    exact h
  | some a => exact denies_pure a

theorem denies_query {q : Query} (h : ∀ f, D (.refused (.failure f))) : (query q).Denies D := by
  intro answer denial hdenial
  cases answer with
  | error f =>
    cases hdenial
    exact h f
  | ok result => cases hdenial

end Action

/-! ## Scopes of loglines -/

/-- The error that a denial tells of. -/
def Denial.cause? : Denial → Option Error
  | .refused (.error e) => some e
  | .refused (.creation e) => some e.cause
  | _ => none

/-- The error of the loglines when a slug is looked up among those of all users. -/
def unscopedLoglines : Error := .internal "logline slugs are scoped per user"

theorem loglineIntake_everywhere (base : String) (order : VariantOrder) :
    loglineIntake (.latest base .everywhere order) = .done (.error unscopedLoglines) := rfl

/-- The denial is not due to a lookup among the loglines of all users. -/
def Denial.Scoped (denial : Denial) : Prop := denial.cause? ≠ some unscopedLoglines

theorem Denial.Early.scoped {denial : Denial} (h : denial.Early) : denial.Scoped := by
  intro hcause
  cases denial with
  | rejected r => cases hcause
  | refused refusal =>
    cases refusal with
    | error e =>
      cases Option.some.inj hcause
      exact absurd h (by decide)
    | creation e =>
      have hstatus : (Denial.refused (.creation e)).response.status = 500 :=
        congrArg (fun e => e.answer.status) (Option.some.inj hcause)
      rw [Denial.Early, hstatus] at h
      exact absurd h (by decide)
    | failure f => cases hcause
    | badRequest message => cases hcause

theorem initial_append {text : String} (rest : String) {c : Char} (h : text.toList.head? = some c) :
    (text ++ rest).toList.head? = some c := by
  rw [String.toList_append, List.head?_append, h, Option.some_or]

section Creation

variable {κ ε : Type} [Candidate κ]
  {intake : (c : CandidateCall κ) → Prog TableStore (CandidateCall.Answer ε c)} {base : String}
  {scope : Scope} {order : VariantOrder} {P : Error → Prop}

/-- A creation fails with a cause that a store has answered, or with one of its own. -/
theorem ends_attemptFrom (hinsert : ∀ d, (intake (.insert d)).Ends fun r => ∀ e, r = .error e → P e)
    (hlatest : (intake (.latest base scope order)).Ends fun r => ∀ e, r = .error e → P e)
    (hnext : ∀ latest e, nextVariant base latest = .error e → P e)
    (huncounted : P (CreationError.uncounted base).cause) (retries : Nat) (attempt : UInt32)
    (d : κ) :
    (Prog.interpret (I := CandidateStore κ ε) intake
      (attemptFrom base scope order retries attempt d)).Ends
      fun r => ∀ e, r = .error e → P e.cause := by
  -- on the retries that are left: the creation goes on only after a taken slug
  induction retries generalizing attempt d with
  | zero =>
    rw [attemptFrom_eq]
    refine Prog.Ends.bind (hinsert d) fun r hr => ?_
    cases r with
    | ok entity => exact nofun
    | error e =>
      intro _ he
      cases he
      exact hr e rfl
  | succ retries ih =>
    rw [attemptFrom_eq]
    refine Prog.Ends.bind (hinsert d) fun r hr => ?_
    cases r with
    | ok entity => exact nofun
    | error e =>
      simp only [afterInsert]
      split
      · refine Prog.Ends.bind hlatest fun answer hanswer => ?_
        cases hnext' : answer.bind (nextVariant base) with
        | error cause =>
          rw [afterLookup_error _ _ _ _ _ _ hnext']
          intro _ he
          cases he
          cases answer with
          | error e =>
            cases hnext'
            exact hanswer cause rfl
          | ok latest => exact hnext latest _ hnext'
        | ok next =>
          simp only [afterLookup, hnext']
          split
          · intro _ he
            cases he
            exact huncounted
          · exact ih _ _
      · intro _ he
        cases he
        exact hr e rfl

end Creation

theorem internal_ne_unscopedLoglines {text : String} {c : Char} (h : text.toList.head? = some c)
    (hc : c ≠ 'l') :
    Error.internal text ≠ unscopedLoglines := by
  intro he
  rw [Error.internal.inj he] at h
  exact hc (Option.some.inj h).symm

theorem nextVariant_ne_unscopedLoglines {base : String} {latest : Option String} {e : Error}
    (h : nextVariant base latest = .error e) : e ≠ unscopedLoglines := by
  unfold nextVariant at h
  split at h
  · next e' hn =>
    cases h
    unfold nextNumber at hn
    split at hn
    · cases hn
    · split at hn
      · next slug _ he =>
        cases hn
        obtain ⟨fault, -, rfl⟩ := mapError_eq_error.mp he
        exact nofun
      · split at hn
        · cases hn
          exact internal_ne_unscopedLoglines (c := 's')
            (initial_append _ (initial_append _ (by decide))) (by decide)
        · cases hn
  · split at h
    · cases h
      exact nofun
    · cases h

theorem insertError_ne_unscopedLoglines (entity slug : String) (f : Failure) :
    insertError entity slug f ≠ unscopedLoglines := by
  unfold insertError
  split <;> exact nofun

theorem ends_intake {q : Query} {deny : Failure → Error} {P : Error → Prop}
    (h : ∀ f, P (deny f)) : ((query q).bind fun r => .done (r.mapError deny)).Ends
      fun r => ∀ e, r = .error e → P e := by
  intro answer e he
  obtain ⟨f, -, rfl⟩ := mapError_eq_error.mp he
  exact h f

theorem uncounted_ne_unscopedLoglines (base : String) :
    (CreationError.uncounted base).cause ≠ unscopedLoglines :=
  internal_ne_unscopedLoglines (c := 't') (initial_append _ (initial_append _ (by decide)))
    (by decide)

namespace Action

theorem denies_ofProg {ε : Type} {p : Prog TableStore (Except CreationError ε)}
    (h : p.Ends fun r => ∀ e, r = .error e → e.cause ≠ unscopedLoglines) :
    (ofProg (fun e => .refused (.creation e)) p).Denies Denial.Scoped := by
  refine Prog.Ends.bind h fun r hr denial hdenial hcause => ?_
  obtain ⟨e, he, rfl⟩ := mapError_eq_error.mp hdenial
  exact hr e he (Option.some.inj hcause)

theorem denies_createLogline (policy : RetryPolicy) (row : NewLogline) :
    (createLogline policy row).Denies Denial.Scoped := by
  refine denies_ofProg (ends_attemptFrom (fun d => ?_) ?_ (fun _ _ =>
    nextVariant_ne_unscopedLoglines)
    (uncounted_ne_unscopedLoglines row.slug) _ _ row)
  · exact ends_intake (insertError_ne_unscopedLoglines "Logline" d.slug)
  · exact ends_intake (q := .latestLogline row.userId row.slug policy.order) fun _ =>
      Error.noConfusion

theorem denies_createStoryPlan (policy : RetryPolicy) (row : NewStoryPlan) :
    (createStoryPlan policy row).Denies Denial.Scoped := by
  refine denies_ofProg (ends_attemptFrom (fun d => ?_) ?_ (fun _ _ =>
    nextVariant_ne_unscopedLoglines)
    (uncounted_ne_unscopedLoglines row.slug) _ _ row)
  · exact ends_intake (insertError_ne_unscopedLoglines "StoryPlan" d.slug)
  · exact ends_intake (q := .latestPlan row.slug policy.order) fun _ => Error.noConfusion

end Action

section Places

open Storyline.Action

variable {r : Request}

theorem scoped_failure (f : Failure) : (Denial.refused (.failure f)).Scoped := nofun

theorem denies_caller (r : Request) : (check (callerOf r)).Denies Denial.Scoped :=
  denies_check fun _ h => (callerOf_early h).scoped

theorem denies_slug (segment : List Char) : (check (slugOf segment)).Denies Denial.Scoped :=
  denies_check fun _ h => (slugOf_early h).scoped

theorem denies_id (segment : List Char) : (check (idOf segment)).Denies Denial.Scoped :=
  denies_check fun _ h => (idOf_early h).scoped

theorem denies_body {α : Type} (reader : Json.Reader α) (r : Request) :
    (check (bodyOf reader r)).Denies Denial.Scoped :=
  denies_check fun _ h => (bodyOf_early h).scoped

theorem denies_ownLogline (user : Int) (slug : String) :
    (ownLogline user slug).Denies Denial.Scoped :=
  (denies_query scoped_failure).bind fun _ => denies_found nofun _

theorem denies_currentPlan (slug : String) : (currentPlan slug).Denies Denial.Scoped :=
  (denies_query scoped_failure).bind fun _ => denies_found nofun _

theorem denies_ownSheet (user id : Int) : (ownSheet user id).Denies Denial.Scoped :=
  (denies_query scoped_failure).bind fun _ => (denies_found nofun _).bind fun _ =>
    (denies_query scoped_failure).bind fun _ => (denies_found nofun _).bind fun _ => denies_pure _

theorem denies_storeSheet (logline : Logline) (plan : StoryPlan) (content : List Beat) :
    (BeatsSheets.store logline plan content).Denies Denial.Scoped :=
  (denies_check fun _ h => (checkContent_early h).scoped).bind fun _ =>
    (denies_query scoped_failure).bind fun _ => denies_pure _

theorem Place.denies_read {place : Place} {x : Action Reply} (hx : place.read? r = some x) :
    x.Denies Denial.Scoped := by
  cases place with
  | health =>
    cases hx
    exact fun _ => nofun
  | loglines =>
    cases hx
    exact (denies_caller r).bind fun _ => (denies_query scoped_failure).bind fun _ => denies_pure _
  | logline slug =>
    cases hx
    exact (denies_caller r).bind fun _ => (denies_slug slug).bind fun _ =>
      (denies_ownLogline _ _).bind fun _ =>
      denies_pure _
  | loglineSheets slug =>
    cases hx
    exact (denies_caller r).bind fun _ => (denies_slug slug).bind fun _ =>
      (denies_ownLogline _ _).bind fun _ =>
      (denies_query scoped_failure).bind fun _ => denies_pure _
  | plans =>
    cases hx
    exact (denies_query scoped_failure).bind fun _ => denies_pure _
  | plan slug =>
    cases hx
    exact (denies_slug slug).bind fun _ => (denies_currentPlan _).bind fun _ => denies_pure _
  | planIterations slug =>
    cases hx
    refine (denies_slug slug).bind fun _ => (denies_query scoped_failure).bind fun rows => ?_
    split
    · exact denies_check fun _ h => by cases h; exact nofun
    · exact denies_pure _
  | sheets => cases hx
  | sheet id =>
    cases hx
    exact (denies_caller r).bind fun _ => (denies_id id).bind fun _ =>
      (denies_ownSheet _ _).bind fun _ =>
      denies_pure _

/-- **No request is denied for a lookup among the loglines of all users**, whatever it is told. -/
theorem Place.denies {policy : RetryPolicy} {place : Place} {x : Action Reply}
    (hx : place.action? policy r = some x) : x.Denies Denial.Scoped := by
  unfold Place.action? at hx
  split at hx
  · exact denies_read hx
  · exact denies_read hx
  · cases hx
    rw [Loglines.create_eq]
    exact (denies_check fun _ h => (Loglines.requested_early h).scoped).bind fun _ =>
      (denies_createLogline policy _).bind fun _ => denies_pure _
  · cases hx
    rw [StoryPlans.create_eq]
    exact (denies_check fun _ h => (StoryPlans.requested_early h).scoped).bind fun _ =>
      (denies_createStoryPlan policy _).bind fun _ => denies_pure _
  · cases hx
    exact (denies_caller r).bind fun _ => (denies_body _ r).bind fun _ =>
      (denies_ownLogline _ _).bind fun _ =>
      (denies_currentPlan _).bind fun _ => denies_storeSheet _ _ _
  · cases hx
    refine (denies_caller r).bind fun _ => (denies_slug _).bind fun _ =>
      (denies_body _ r).bind fun _ => ?_
    exact (denies_check fun _ h => (checkRevision_early h).scoped).bind fun _ =>
      (denies_currentPlan _).bind
      fun _ => (denies_query scoped_failure).bind fun _ => denies_pure _
  · cases hx
    refine (denies_caller r).bind fun _ => (denies_id _).bind fun _ =>
      (denies_body _ r).bind fun _ => ?_
    exact (denies_ownSheet _ _).bind fun _ => (denies_query scoped_failure).bind fun _ =>
      (denies_found nofun _).bind fun _ => denies_storeSheet _ _ _
  · cases hx

end Places

end Storyline
