import Storyline.Proofs.Ladder

/-!
# Scopes by themselves

What a creation does in a registry depends on the rows of its own scope. Rows of other scopes may
come and go between two creations, or in another order, and nobody there can tell.

* `Registry.AgreeIn`: two registries that agree in a scope;
* `Registry.grown`: a registry after some calls, with the rows that they added, and how it answers
  (`Registry.handle_insert_refused`, `Registry.handle_latest_shown`, ...);
* `Registry.Alike`: a program that does the same in two registries, with one step lemma for each
  call;
* **`Registry.create_scoped`**: creations are alike in registries that agree in their scope, and
  creations in two scopes may run in either order.
-/

namespace Storyline.Registry

/-! ## Agreement in a scope -/

/-- The registries have the same settings and the same rows in the scope, in the same order. -/
structure AgreeIn (scope : Scope) (r r' : Registry) : Prop where
  rows : slugsOf r.rows scope = slugsOf r'.rows scope
  hidden : ∀ slug, slug ∈ r.hidden ↔ slug ∈ r'.hidden
  insertFails : r.insertFails = r'.insertFails
  lookupFails : r.lookupFails = r'.lookupFails

/-- The registry after some calls that have added rows. -/
def grown (r : Registry) (inserts lookups : Nat) (added : List Entry) : Registry :=
  { r with rows := r.rows ++ added, inserts := r.inserts + inserts, lookups := r.lookups + lookups }

theorem grown_grown (r : Registry) (inserts lookups inserts' lookups' : Nat)
    (added added' : List Entry) :
    (r.grown inserts lookups added).grown inserts' lookups' added' =
      r.grown (inserts + inserts') (lookups + lookups') (added ++ added') := by
  simp only [grown, List.append_assoc, Nat.add_assoc]

/-- The answer to a lookup. -/
def shown (r : Registry) (base : String) (scope : Scope) (order : VariantOrder) :
    Except Error (Option String) :=
  if r.lookupFails then .error lookupFailure else .ok (latest? r.rows base scope order)

section Answers

variable {r : Registry} {e : Entry}

theorem handle_insert_failing (hfails : r.insertFails = true) (e : Entry) :
    handle (.insert e) r = (.error insertFailure, r.grown 1 0 []) := by
  simp [handle, hfails, grown]

theorem handle_insert_refused (hfails : r.insertFails = false) (htaken : r.taken e = true) :
    handle (.insert e) r = (.error (.slugTaken entityName e.slug), r.grown 1 0 []) := by
  simp [handle, hfails, htaken, grown]

theorem handle_insert_stored (hfails : r.insertFails = false) (hfree : r.taken e = false) :
    handle (.insert e) r = (.ok ⟨r.rows.length + 1, e.slug⟩, r.grown 1 0 [e]) := by
  simp [handle, hfails, hfree, grown]

theorem handle_latest_shown (r : Registry) (base : String) (scope : Scope) (order : VariantOrder) :
    handle (.latest base scope order) r = (r.shown base scope order, r.grown 0 1 []) := by
  cases hfails : r.lookupFails <;> simp [handle, shown, hfails, grown]

end Answers

theorem slugsOf_append (rows rows' : List Entry) (scope : Scope) :
    slugsOf (rows ++ rows') scope = slugsOf rows scope ++ slugsOf rows' scope := by
  simp only [slugsOf, List.filter_append, List.map_append]

theorem slugsOf_eq_nil {rows : List Entry} {scope : Scope} (h : ∀ e ∈ rows, e.scope ≠ scope) :
    slugsOf rows scope = [] := by
  rw [slugsOf, List.map_eq_nil_iff, List.filter_eq_nil_iff]
  intro e he
  rw [decide_eq_true_eq]
  exact h e he

section Agreement

variable {scope : Scope} {r r' : Registry}

theorem AgreeIn.grown (h : AgreeIn scope r r') (i l i' l' : Nat) (added : List Entry) :
    AgreeIn scope (r.grown i l added) (r'.grown i' l' added) := by
  refine ⟨?_, h.hidden, h.insertFails, h.lookupFails⟩
  change slugsOf (r.rows ++ added) scope = slugsOf (r'.rows ++ added) scope
  rw [slugsOf_append, slugsOf_append, h.rows]

theorem agreeIn_grown {added : List Entry} (hadded : ∀ e ∈ added, e.scope ≠ scope) (i l : Nat) :
    AgreeIn scope r (r.grown i l added) := by
  refine ⟨?_, fun _ => Iff.rfl, rfl, rfl⟩
  change _ = slugsOf (r.rows ++ added) scope
  rw [slugsOf_append, slugsOf_eq_nil hadded, List.append_nil]

theorem AgreeIn.taken {e : Entry} (h : AgreeIn e.scope r r') : r.taken e = r'.taken e := by
  rw [Bool.eq_iff_iff]
  simp only [Registry.taken, Bool.or_eq_true, List.contains_iff_mem, h.hidden,
    ← mem_slugsOf, h.rows]

theorem AgreeIn.latest? (h : AgreeIn scope r r') (base : String) (order : VariantOrder) :
    latest? r.rows base scope order = latest? r'.rows base scope order := by
  have hvariants : variants r.rows base scope = variants r'.rows base scope := by
    rw [variants_eq, variants_eq, h.rows]
  cases order <;> simp only [Registry.latest?, hvariants]

end Agreement

/-! ## The same steps in two registries -/

/-- The program ends alike in both registries, after as many calls of each kind, and adds the same
rows to them, all of them in the scope. It changes nothing else. -/
def Alike (scope : Scope) (p : Prog (CandidateStore Entry Entity) (Except CreationError Entity))
    (r r' : Registry) : Prop :=
  ((p.run handle r).1.map Entity.slug = (p.run handle r').1.map Entity.slug) ∧
    ∃ inserts lookups added, (∀ e ∈ added, e.scope = scope) ∧
      (p.run handle r).2 = r.grown inserts lookups added ∧
        (p.run handle r').2 = r'.grown inserts lookups added

section Steps

variable {scope : Scope} {r r' : Registry}

theorem alike_done (x : Except CreationError Entity) : Alike scope (.done x) r r' :=
  ⟨rfl, 0, 0, [], nofun, by simp [grown], by simp [grown]⟩

theorem handle_insert_agreeIn {e : Entry} (h : AgreeIn e.scope r r') :
    (handle (.insert e) r = (.ok ⟨r.rows.length + 1, e.slug⟩, r.grown 1 0 [e]) ∧
      handle (.insert e) r' = (.ok ⟨r'.rows.length + 1, e.slug⟩, r'.grown 1 0 [e])) ∨
    ∃ cause, handle (.insert e) r = (.error cause, r.grown 1 0 []) ∧
      handle (.insert e) r' = (.error cause, r'.grown 1 0 []) := by
  cases hfails : r.insertFails with
  | true =>
    have hfails' : r'.insertFails = true := h.insertFails ▸ hfails
    exact .inr ⟨insertFailure, handle_insert_failing hfails e, handle_insert_failing hfails' e⟩
  | false =>
    have hfails' : r'.insertFails = false := h.insertFails ▸ hfails
    cases htaken : r.taken e with
    | true =>
      have htaken' : r'.taken e = true := h.taken ▸ htaken
      exact .inr ⟨.slugTaken entityName e.slug, handle_insert_refused hfails htaken,
        handle_insert_refused hfails' htaken'⟩
    | false =>
      have htaken' : r'.taken e = false := h.taken ▸ htaken
      exact .inl ⟨handle_insert_stored hfails htaken, handle_insert_stored hfails' htaken'⟩

theorem handle_latest_agreeIn (h : AgreeIn scope r r') (base : String) (order : VariantOrder) :
    ∃ answer, handle (.latest base scope order) r = (answer, r.grown 0 1 []) ∧
      handle (.latest base scope order) r' = (answer, r'.grown 0 1 []) := by
  refine ⟨shown r base scope order, handle_latest_shown r base scope order, ?_⟩
  have hshown : shown r base scope order = shown r' base scope order := by
    rw [shown, shown, h.lookupFails, h.latest?]
  rw [hshown]
  exact handle_latest_shown r' base scope order

theorem alike_ask {c : CandidateCall Entry}
    {k : CandidateCall.Answer Entity c →
      Prog (CandidateStore Entry Entity) (Except CreationError Entity)}
    {answer : CandidateCall.Answer Entity c} {i l : Nat}
    (hr : handle c r = (answer, r.grown i l [])) (hr' : handle c r' = (answer, r'.grown i l []))
    (hk : Alike scope (k answer) (r.grown i l []) (r'.grown i l [])) :
    Alike scope (.ask c k) r r' := by
  obtain ⟨hresult, i', l', added, hadded, hrun, hrun'⟩ := hk
  refine ⟨?_, i + i', l + l', added, hadded, ?_, ?_⟩
  · rw [Prog.run_ask, Prog.run_ask, hr, hr']
    exact hresult
  · rw [Prog.run_ask, hr, hrun, grown_grown, List.nil_append]
  · rw [Prog.run_ask, hr', hrun', grown_grown, List.nil_append]

theorem alike_insert {e : Entry} (h : AgreeIn e.scope r r')
    {k : Except Error Entity → Prog (CandidateStore Entry Entity) (Except CreationError Entity)}
    (hstored : ∀ entity, k (.ok entity) = .done (.ok entity))
    (hrefused : ∀ cause, Alike e.scope (k (.error cause)) (r.grown 1 0 []) (r'.grown 1 0 [])) :
    Alike e.scope (.ask (.insert e) k) r r' := by
  rcases handle_insert_agreeIn h with ⟨hr, hr'⟩ | ⟨cause, hr, hr'⟩
  · refine ⟨?_, 1, 0, [e], by simp, ?_, ?_⟩
    · simp only [Prog.run_ask, hr, hr', hstored, Prog.run_done]
      rfl
    · simp only [Prog.run_ask, hr, hstored, Prog.run_done]
    · simp only [Prog.run_ask, hr', hstored, Prog.run_done]
  · exact alike_ask hr hr' (hrefused cause)

theorem alike_attemptFrom (base : String) (order : VariantOrder) (retries : Nat) (attempt : UInt32)
    {e : Entry} (h : AgreeIn e.scope r r') :
    Alike e.scope (attemptFrom base e.scope order retries attempt e) r r' := by
  rw [attemptFrom_eq]
  -- on the retries that are left: two refusals are followed by the same lookup, and by the same
  -- next entry
  induction retries generalizing attempt e r r' with
  | zero => exact alike_insert h (fun _ => rfl) fun cause => alike_done _
  | succ retries ih =>
    refine alike_insert h (fun _ => rfl) fun cause => ?_
    simp only [afterInsert]
    split_ifs with htaken
    · have hinserted := h.grown 1 0 1 0 []
      obtain ⟨answer, hr, hr'⟩ := handle_latest_agreeIn hinserted base order
      refine alike_ask hr hr' ?_
      simp only [afterLookup]
      split
      · exact alike_done _
      · next next _ =>
        split_ifs with hsize
        · exact alike_done _
        · rw [attemptFrom_eq]
          exact ih (attempt + 1) (e := ⟨next.slug, e.scope⟩) (hinserted.grown 0 1 0 1 [])
    · exact alike_done _

end Steps

/-! ## Creations and their scopes -/

theorem alike_create (policy : RetryPolicy) {e : Entry} {r r' : Registry}
    (h : AgreeIn e.scope r r') :
    Alike e.scope (create policy e) r r' :=
  alike_attemptFrom e.slug policy.order _ 1 h

theorem agreeIn_create (policy : RetryPolicy) {e : Entry} {scope : Scope} (hne : e.scope ≠ scope)
    (r : Registry) : AgreeIn scope r ((create (ε := Entity) policy e).run handle r).2 := by
  obtain ⟨-, i, l, added, hadded, hrun, -⟩ :=
    alike_create policy (⟨rfl, fun _ => Iff.rfl, rfl, rfl⟩ : AgreeIn e.scope r r)
  rw [hrun]
  exact agreeIn_grown (fun e' he' => (hadded e' he').symm ▸ hne) i l

theorem slugsOf_swap {added added' : List Entry} {scope scope' : Scope} (hne : scope' ≠ scope)
    (h : ∀ e ∈ added, e.scope = scope) (h' : ∀ e ∈ added', e.scope = scope') (rows : List Entry)
    (s : Scope) : slugsOf (rows ++ added ++ added') s = slugsOf (rows ++ added' ++ added) s := by
  simp only [slugsOf_append, List.append_assoc, List.append_cancel_left_eq]
  by_cases hs : scope = s
  · have hnil : slugsOf added' s = [] := slugsOf_eq_nil fun e he => by rw [h' e he, ← hs]; exact hne
    rw [hnil, List.append_nil, List.nil_append]
  · have hnil : slugsOf added s = [] := slugsOf_eq_nil fun e he => by rw [h e he]; exact hs
    rw [hnil, List.append_nil, List.nil_append]

/-- **Scopes do not influence each other.** In registries that agree in its scope, whatever their
other rows, a creation ends alike, after as many calls, and adds the same rows to its scope, behind
all rows that were there. So creations in two scopes end alike in whichever order they run, and
leave each scope with the same rows. -/
theorem create_scoped (policy : RetryPolicy) (e : Entry) (r : Registry) :
    (∀ r', AgreeIn e.scope r r' → Alike e.scope (create policy e) r r' ∧
      AgreeIn e.scope ((create policy e).run handle r).2 ((create policy e).run handle r').2) ∧
    ∀ policy' (e' : Entry), e'.scope ≠ e.scope →
      let first := (create (ε := Entity) policy e).run handle r
      let second := (create (ε := Entity) policy' e').run handle first.2
      let first' := (create (ε := Entity) policy' e').run handle r
      let second' := (create (ε := Entity) policy e).run handle first'.2
      first.1.map Entity.slug = second'.1.map Entity.slug ∧
        second.1.map Entity.slug = first'.1.map Entity.slug ∧
        ∀ scope, slugsOf second.2.rows scope = slugsOf second'.2.rows scope := by
  refine ⟨fun r' h => ?_, fun policy' e' hne => ?_⟩
  · have halike := alike_create policy h
    obtain ⟨-, i, l, added, -, hrun, hrun'⟩ := id halike
    refine ⟨halike, ?_⟩
    rw [hrun, hrun']
    exact h.grown i l i l added
  · -- each creation is alike before and after the other one
    intro first second first' second'
    obtain ⟨hresult, i, l, added, hadded, hfirst, hsecond'⟩ :=
      alike_create policy (agreeIn_create policy' hne r)
    obtain ⟨hresult', i', l', added', hadded', hfirst', hsecond⟩ :=
      alike_create policy' (agreeIn_create policy hne.symm r)
    refine ⟨hresult, hresult'.symm, fun scope => ?_⟩
    have hrows : second.2.rows = r.rows ++ added ++ added' := by
      rw [hsecond, hfirst]
      rfl
    have hrows' : second'.2.rows = r.rows ++ added' ++ added := by
      rw [hsecond', hfirst']
      rfl
    rw [hrows, hrows']
    exact slugsOf_swap hne hadded hadded' r.rows scope

/-- The slug and its ninth variant, taken by another user, do not change what this user is given. -/
theorem create_scoped_two :
    let r : Registry := { rows := [⟨"hero", .user 1⟩, ⟨"hero-1", .user 1⟩] }
    let r' : Registry :=
      { rows := [⟨"hero-9", .user 2⟩, ⟨"hero", .user 1⟩, ⟨"hero", .user 2⟩, ⟨"hero-1", .user 1⟩] }
    let e : Entry := ⟨"hero", .user 1⟩
    let p : Prog (CandidateStore Entry Entity) _ := create ⟨1, .newest⟩ e
    AgreeIn (.user 1) r r' ∧ Alike (.user 1) p r r' ∧
      (p.run handle r').1 = .ok ⟨5, "hero-2"⟩ ∧
      Scope.user 2 ≠ .user 1 ∧
      let p' : Prog (CandidateStore Entry Entity) _ :=
        create ⟨1, .newest⟩ (⟨"hero", .user 2⟩ : Entry)
      (p.run handle r').1.map Entity.slug =
        (p.run handle (p'.run handle r').2).1.map Entity.slug := by
  intro r r' e p
  have hagree : AgreeIn e.scope r r' := ⟨by decide, fun _ => Iff.rfl, rfl, rfl⟩
  have hne : Scope.user 2 ≠ .user 1 := by decide
  exact ⟨hagree, ((create_scoped ⟨1, .newest⟩ e r).1 r' hagree).1, by decide +kernel, hne,
    ((create_scoped ⟨1, .newest⟩ e r').2 ⟨1, .newest⟩ ⟨"hero", .user 2⟩ hne).1⟩

end Storyline.Registry
