import Storyline.Proofs.Attempts
import Storyline.Proofs.Outcomes
import Storyline.Proofs.Pool
import Storyline.Service.Handlers

/-!
# All queries of an action

* `Prog.EndsOn`: some failures to store end the program, with `Action.GivesUp` and its rules;
* `Action.Asks`: the action makes only queries of one kind, with a rule for each step of an action;
* `asks_attemptFrom`: the calls of a creation;
* `AfterInsert`, `throughout_attemptFrom`: how a creation goes on after each of its inserts.
-/

namespace Storyline

namespace Prog

variable {α β : Type}

/-- If the tables fail to store something, and the failure is one of these, the program ends at
once, with `Q`. -/
def EndsOn (stop : Failure → Prop) (Q : α → Prop) (p : Prog TableStore α) : Prop :=
  p.Throughout (I := TableStore)
    fun (q : Query) (k : Except Failure q.Result → Prog TableStore α) =>
    q.stores = true → ∀ f, stop f → ∃ a, k (.error f) = .done a ∧ Q a

theorem EndsOn.bind {stop : Failure → Prop} {Q : α → Prop} {Q' : β → Prop} {p : Prog TableStore α}
    {f : α → Prog TableStore β} (h : p.EndsOn stop Q) (hQ : ∀ a, Q a → ∃ b, f a = .done b ∧ Q' b)
    (hf : ∀ a, (f a).EndsOn stop Q') : (p.bind f).EndsOn stop Q' := by
  refine Throughout.bind h (fun q k hk hq failure hfailure => ?_) hf
  obtain ⟨a, ha, hQa⟩ := hk hq failure hfailure
  obtain ⟨b, hb, hQb⟩ := hQ a hQa
  exact ⟨b, by simp only [ha, done_bind, hb], hQb⟩

end Prog

namespace Action

variable {α β : Type}

/-! ## Queries of one kind -/

/-- The action makes only queries of which `P` holds. -/
def Asks (P : Query → Prop) (x : Action α) : Prop := Prog.Asks (I := TableStore) P x.run

section Asks

variable {P : Query → Prop}

theorem Asks.bind {x : Action α} {f : α → Action β} (h : x.Asks P) (hf : ∀ a, (f a).Asks P) :
    (x >>= f).Asks P := by
  refine Prog.Asks.bind (f := ExceptT.bindCont f) h fun r => ?_
  cases r with
  | error denial => trivial
  | ok a => exact hf a

theorem asks_pure (a : α) : (pure a : Action α).Asks P := trivial

theorem asks_check {r : Except Denial α} {f : α → Action β} (hf : ∀ a, r = .ok a → (f a).Asks P) :
    (check r >>= f).Asks P := by
  cases r with
  | error denial => trivial
  | ok a => exact hf a rfl

theorem asks_found (e : Error) (o : Option α) : (found e o).Asks P := by
  cases o <;> trivial

theorem asks_ofProg {φ : Type} {deny : φ → Denial} {p : Prog TableStore (Except φ α)}
    (h : p.Asks P) :
    (ofProg deny p).Asks P :=
  Prog.Asks.bind h fun _ => trivial

theorem asks_query {q : Query} (hq : P q) : (query q).Asks P := asks_ofProg ⟨hq, fun _ => trivial⟩

end Asks

/-! ## Failures that end an action -/

/-- If the tables fail to store something, and the failure is one of these, the action is denied
with `D`. -/
def GivesUp (stop : Failure → Prop) (D : Denial → Prop) (x : Action α) : Prop :=
  x.run.EndsOn stop fun r => ∃ denial, r = .error denial ∧ D denial

section GivesUp

variable {stop : Failure → Prop} {D : Denial → Prop}

theorem GivesUp.bind {x : Action α} {f : α → Action β} (h : x.GivesUp stop D)
    (hf : ∀ a, (f a).GivesUp stop D) :
    (x >>= f).GivesUp stop D := by
  refine Prog.EndsOn.bind (f := ExceptT.bindCont f) h ?_ fun r => ?_
  · rintro _ ⟨denial, rfl, hD⟩
    exact ⟨_, rfl, denial, rfl, hD⟩
  · cases r with
    | error denial => trivial
    | ok a => exact hf a

theorem givesUp_pure (a : α) : (pure a : Action α).GivesUp stop D := trivial

theorem givesUp_check (r : Except Denial α) : (check r).GivesUp stop D := trivial

theorem givesUp_found (e : Error) (o : Option α) : (found e o).GivesUp stop D := by
  cases o <;> trivial

theorem givesUp_ofProg {φ : Type} {deny : φ → Denial} {p : Prog TableStore (Except φ α)}
    (h : p.EndsOn stop fun r => ∃ e, r = .error e ∧ D (deny e)) :
    (ofProg deny p).GivesUp stop D := by
  refine Prog.EndsOn.bind h ?_ fun _ => trivial
  rintro _ ⟨e, rfl, hD⟩
  exact ⟨_, rfl, _, rfl, hD⟩

theorem givesUp_query {q : Query} (h : ∀ f, stop f → D (.refused (.failure f))) :
    (query q).GivesUp stop D :=
  givesUp_ofProg ⟨fun _ f hf => ⟨_, rfl, f, rfl, h f hf⟩, fun _ => trivial⟩

end GivesUp

end Action

/-! ## Creations -/

section Creation

variable {κ ε : Type} [Candidate κ] {P : CandidateCall κ → Prop} {base : String} {scope : Scope}
  {order : VariantOrder}

/-- **A creation** stores the candidate under one slug or another, and looks up one base in one
scope. -/
theorem asks_attemptFrom (allowed : κ → Prop) (hinsert : ∀ d, allowed d → P (.insert d))
    (hlatest : P (.latest base scope order))
    (hrenamed : ∀ d slug, allowed d → allowed (Candidate.withSlug d slug)) (retries : Nat)
    (attempt : UInt32) {d : κ} (hd : allowed d) :
    Prog.Asks (I := CandidateStore κ ε) P (attemptFrom base scope order retries attempt d) := by
  -- on the retries that are left
  induction retries generalizing attempt d with
  | zero =>
    rw [attemptFrom_eq]
    refine ⟨hinsert d hd, fun answer => ?_⟩
    cases answer <;> trivial
  | succ retries ih =>
    rw [attemptFrom_eq]
    refine ⟨hinsert d hd, fun answer => ?_⟩
    cases answer with
    | ok entity => trivial
    | error e =>
      simp only [afterInsert]
      split
      · refine ⟨hlatest, fun latest => ?_⟩
        unfold afterLookup
        split
        · trivial
        · split
          · trivial
          · exact ih _ (hrenamed d _ hd)
      · trivial

end Creation

theorem insertError_isSlugTaken {entity slug : String} {f : Failure} :
    (insertError entity slug f).isSlugTaken = f.isDuplicate := by
  unfold insertError
  split
  · next h => exact h.symm
  · next h => exact (Bool.not_eq_true _ ▸ h).symm

section Inserts

variable {κ ε : Type} [Candidate κ]
  (intake : (c : CandidateCall κ) → Prog TableStore (CandidateCall.Answer ε c)) {base : String}
  {scope : Scope} {order : VariantOrder}

/-- How a creation goes on after it has tried to store under a slug: it ends if it has failed,
unless the slug is taken; then it may look for another one. -/
structure AfterInsert (lookup : Prog TableStore (Except Error (Option String))) (slug : String)
    (k : Except Error ε → Prog TableStore (Except CreationError ε)) : Prop where
  failed : ∀ e, e.isSlugTaken = false →
    ∃ attempt, k (.error e) = .done (.error (.insert slug attempt e))
  taken : ∀ e, e.isSlugTaken = true →
    (∃ attempt, k (.error e) = .done (.error (.insert slug attempt e))) ∨
    ∃ k', k (.error e) = lookup.bind k'

/-- **A creation** takes its inserts in this way, however many retries are left. -/
theorem throughout_attemptFrom
    {R : (q : Query) → (Except Failure q.Result → Prog TableStore (Except CreationError ε)) → Prop}
    (hinsert : ∀ d k, AfterInsert (intake (.latest base scope order)) (Candidate.slug d) k →
      (∀ answer, (k answer).Throughout R) → ((intake (.insert d)).bind k).Throughout R)
    (hlatest : ∀ k, (∀ answer, (k answer).Throughout R) →
      ((intake (.latest base scope order)).bind k).Throughout R)
    (retries : Nat) (attempt : UInt32) (d : κ) :
    (Prog.interpret (I := CandidateStore κ ε) intake
      (attemptFrom base scope order retries attempt d)).Throughout R := by
  -- on the retries that are left
  induction retries generalizing attempt d with
  | zero =>
    rw [attemptFrom_eq]
    refine hinsert d _ ⟨fun e _ => ⟨attempt, rfl⟩, fun e _ => .inl ⟨attempt, rfl⟩⟩ fun answer => ?_
    cases answer <;> trivial
  | succ retries ih =>
    rw [attemptFrom_eq]
    refine hinsert d _ ⟨fun e he => ⟨attempt, ?_⟩, fun e he => .inr ?_⟩ fun answer => ?_
    · simp [afterInsert, he, Prog.interpret]
    · rw [afterInsert_taken _ _ _ _ _ _ he]
      exact ⟨_, rfl⟩
    · cases answer with
      | ok entity => trivial
      | error e =>
        simp only [afterInsert]
        split
        · refine hlatest _ fun latest => ?_
          unfold afterLookup
          split
          · trivial
          · split
            · trivial
            · exact ih _ _
        · trivial

end Inserts

end Storyline
