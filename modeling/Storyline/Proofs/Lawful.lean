import Storyline.Proofs.Attempts
import Storyline.Proofs.Outcomes
import Storyline.Proofs.Pool
import Storyline.Service.Handlers

/-!
# Lawful programs

A program is lawful if it stores only what it may in view of what it has been told, and ends as soon
as it has stored something. This is a property of the program alone; what it says about runs holds
for the program by itself and for the program beside others.

* `Prog.Lawful`, with `Prog.Lawful.bind`;
* `Prog.LawfulAt`: the program may go on from given tables, with `Prog.LawfulAt.turn`;
* `Prog.LawfulAt.run`, `Prog.LawfulAt.run_within`: a run by itself stores once or not at all, and
  not at all if it is given up;
* `Pool.LawfulAt`: programs beside each other, with `Pool.LawfulAt.step`.
-/

namespace Storyline

namespace Prog

/-- A program stores only what `permit` allows, where `K` is known of the tables and of all later
ones. It ends with `idle` if it stores nothing, and with `stored` right after it has stored a
row. -/
inductive Lawful (permit : Query → Tables → Prop) {α : Type} (idle : α → Tables → Prop)
    (stored : Json → α → Prop) : (Tables → Prop) → Prog TableStore α → Prop
  | done {K : Tables → Prop} {a : α} (h : ∀ t, K t → idle a t) :
      Lawful permit idle stored K (.done a)
  | read {K : Tables → Prop} {q : Query} {k : Except Failure q.Result → Prog TableStore α}
      (hq : q.stores = false) (hfail : ∀ f, Lawful permit idle stored K (k (.error f)))
      (hok : ∀ result, Lawful permit idle stored (fun t => K t ∧ q.Told t result)
        (k (.ok result))) :
      Lawful permit idle stored K (.ask q k)
  | store {K : Tables → Prop} {q : Query} {k : Except Failure q.Result → Prog TableStore α}
      (hq : q.stores = true) (hpermit : ∀ t, K t → permit q t)
      (hfail : ∀ f, Lawful permit idle stored K (k (.error f)))
      (hok : ∀ result, ∃ a, k (.ok result) = .done a ∧ stored (q.shown result) a) :
      Lawful permit idle stored K (.ask q k)

section Rules

variable {permit : Query → Tables → Prop} {α β : Type} {idle : α → Tables → Prop}
  {idle' : β → Tables → Prop} {stored : Json → α → Prop} {stored' : Json → β → Prop}
  {K K' : Tables → Prop} {p : Prog TableStore α}

theorem Lawful.mono (h : Lawful permit idle stored K p) (hK : ∀ t, K' t → K t) :
    Lawful permit idle stored K' p := by
  induction h generalizing K' with
  | done h => exact .done fun t ht => h t (hK t ht)
  | read hq hfail hok ihfail ihok =>
    exact .read hq (fun f => ihfail f hK) fun result => ihok result fun t ht => ⟨hK t ht.1, ht.2⟩
  | store hq hpermit hfail hok ihfail =>
    exact .store hq (fun t ht => hpermit t (hK t ht)) (fun f => ihfail f hK) hok

theorem Lawful.bind {f : α → Prog TableStore β} (h : Lawful permit idle stored K p)
    (hf : ∀ a, Lawful permit idle' stored' (idle a) (f a))
    (hs : ∀ json a, stored json a → ∃ b, f a = .done b ∧ stored' json b) :
    Lawful permit idle' stored' K (p.bind f) := by
  induction h with
  | done h => exact (hf _).mono h
  | read hq hfail hok ihfail ihok => exact .read hq ihfail ihok
  | store hq hpermit hfail hok ihfail =>
    refine .store hq hpermit ihfail fun result => ?_
    obtain ⟨a, ha, hstored⟩ := hok result
    obtain ⟨b, hb, hstored'⟩ := hs _ a hstored
    exact ⟨b, by rw [ha, done_bind, hb], hstored'⟩

theorem Lawful.imp {idle' : α → Tables → Prop} {stored' : Json → α → Prop}
    (h : Lawful permit idle stored K p) (hidle : ∀ a t, idle a t → idle' a t)
    (hstored : ∀ json a, stored json a → stored' json a) : Lawful permit idle' stored' K p := by
  rw [← bind_done p]
  exact h.bind (fun a => .done (hidle a)) fun json a ha => ⟨a, rfl, hstored json a ha⟩

/-! ## Lawful programs at work -/

/-- A lawful program may go on from the tables: what it knows holds of them and of all later
ones. -/
def LawfulAt (permit : Query → Tables → Prop) (idle : α → Tables → Prop) (stored : Json → α → Prop)
    (t : Tables) (p : Prog TableStore α) : Prop :=
  ∃ K, Lawful permit idle stored K p ∧ ∀ t', t.Extends t' → K t'

theorem Lawful.at (h : Lawful permit idle stored (fun _ => True) p) (t : Tables) :
    LawfulAt permit idle stored t p := ⟨_, h, fun _ _ => trivial⟩

theorem LawfulAt.mono {t t' : Tables} (h : LawfulAt permit idle stored t p) (ht : t.Extends t') :
    LawfulAt permit idle stored t' p := by
  obtain ⟨K, h, hK⟩ := h
  exact ⟨K, h, fun t'' ht' => hK t'' (ht.trans ht')⟩

/-- The tables get what is permitted, and the program ends with `a` for it. -/
def Stores (permit : Query → Tables → Prop) (stored : Json → α → Prop) (t t' : Tables) (a : α) :
    Prop :=
  ∃ q e, permit q t ∧ Query.Adds t q e ∧ t' = t.add e ∧ stored e.toJson a

theorem Stores.extends {t t' : Tables} {a : α} (h : Stores permit stored t t' a) :
    t.Extends t' := by
  obtain ⟨q, e, -, hadds, rfl, -⟩ := h
  exact hadds.next.extends

/-- **The next call of a lawful program** leaves the rows as they are, and the tables if nothing may
be stored, or stores and ends the program. -/
theorem LawfulAt.turn {q : Query} {k : Except Failure q.Result → Prog TableStore α}
    {answer : Except Failure q.Result} {t t' : Tables}
    (h : LawfulAt permit idle stored t (.ask q k)) (hq : q.Outcome t answer t') :
    (t.SameRows t' ∧ (t' = t ∨ permit q t) ∧ LawfulAt permit idle stored t' (k answer)) ∨
      ∃ a, k answer = .done a ∧ Stores permit stored t t' a := by
  obtain ⟨K, h, hK⟩ := h
  have hlater : t.SameRows t' → ∀ t'', t'.Extends t'' → K t'' := fun hsame t'' ht'' =>
    hK t'' (hsame.extends.trans ht'')
  cases h with
  | read hread hfail hok =>
    cases hq with
    | failed f hrows hsame => exact .inl ⟨hrows, .inl (hsame hread), K, hfail f, hlater hrows⟩
    | told hread' htold =>
      exact .inl ⟨.refl t, .inl rfl, _, hok _, fun t'' ht'' => ⟨hK t'' ht'', htold.extends ht''⟩⟩
    | added hadds hshown => cases hread.symm.trans hadds.stores
  | store hstores hpermit hfail hok =>
    have hp := hpermit t (hK t (.refl t))
    cases hq with
    | failed f hrows hsame => exact .inl ⟨hrows, .inr hp, K, hfail f, hlater hrows⟩
    | told hread htold => cases hread.symm.trans hstores
    | @added result e hadds hshown =>
      obtain ⟨a, ha, hstored⟩ := hok result
      exact .inr ⟨a, ha, q, e, hp, hadds, rfl, hshown ▸ hstored⟩

/-- **A lawful program by itself** leaves the rows as they are, and the tables if nothing may be
stored, or stores once, from tables with the same rows. -/
theorem LawfulAt.run (w : Conditions) {s : Tables × Nat} (h : LawfulAt permit idle stored s.1 p) :
    let (a, s') := p.run (Database.under w) s
    (s.1.SameRows s'.1 ∧ (s'.1 = s.1 ∨ ∃ q t, permit q t) ∧ idle a s'.1) ∨
      ∃ t, s.1.SameRows t ∧ Stores permit stored t s'.1 a := by
  induction p generalizing s with
  | done a =>
    obtain ⟨K, h, hK⟩ := h
    cases h with
    | done h => exact .inl ⟨.refl _, .inl rfl, h _ (hK _ (.refl _))⟩
  | ask q k ih =>
    rw [run_ask]
    rcases h.turn (Database.outcome_under w q s) with ⟨hrows, hsame, h⟩ | ⟨a, ha, hstores⟩
    · rcases ih _ h with ⟨hrows', hsame', hidle⟩ | ⟨t, ht, hstores⟩
      · refine .inl ⟨hrows.trans hrows', ?_, hidle⟩
        rcases hsame with hsame | hp
        · exact hsame'.imp_left (·.trans hsame)
        · exact .inr ⟨q, s.1, hp⟩
      · exact .inr ⟨t, hrows.trans ht, hstores⟩
    · -- a call that stores ends the program, so it has been the last one
      rw [ha, run_done]
      exact .inr ⟨s.1, .refl _, hstores⟩

end Rules

end Prog

namespace Pool

variable {ι α : Type} [DecidableEq ι] {permit : ι → Query → Tables → Prop}
  {idle : ι → α → Tables → Prop} {stored : ι → Json → α → Prop}
  {p : Pool TableStore ι α (Tables × Nat)}

/-- Every program of the pool has ended or may go on. -/
def LawfulAt (permit : ι → Query → Tables → Prop) (idle : ι → α → Tables → Prop)
    (stored : ι → Json → α → Prop) (p : Pool TableStore ι α (Tables × Nat)) : Prop :=
  ∀ i, (∃ a, p.progs i = .done a) ∨ Prog.LawfulAt (permit i) (idle i) (stored i) p.store.1
    (p.progs i)

theorem LawfulAt.update {i : ι} {x : Prog TableStore α} {s : Tables × Nat}
    (h : LawfulAt permit idle stored p) (hs : p.store.1.Extends s.1)
    (hx : (∃ a, x = .done a) ∨ Prog.LawfulAt (permit i) (idle i) (stored i) s.1 x) :
    LawfulAt permit idle stored ⟨Function.update p.progs i x, s⟩ := by
  intro j
  by_cases hj : j = i
  · subst hj
    simpa only [Function.update_self] using hx
  · simpa only [Function.update_of_ne hj] using (h j).imp_right (·.mono hs)

/-- **A turn among lawful programs** leaves the rows as they are, or stores what the program whose
turn it is may store, and all the programs may go on. -/
theorem LawfulAt.step (h : LawfulAt permit idle stored p) (w : Conditions) (i : ι) :
    LawfulAt permit idle stored (p.step (Database.under w) i) ∧
      (p.store.1.SameRows (p.step (Database.under w) i).store.1 ∨
        ∃ a, Prog.Stores (permit i) (stored i) p.store.1
          (p.step (Database.under w) i).store.1 a) := by
  cases hp : p.progs i with
  | done a =>
    rw [step_done hp]
    exact ⟨h, .inl (.refl _)⟩
  | ask q k =>
    have hi : Prog.LawfulAt (permit i) (idle i) (stored i) p.store.1 (.ask q k) := by
      rcases h i with ⟨a, ha⟩ | hi
      · cases hp.symm.trans ha
      · rwa [hp] at hi
    rw [step_ask hp]
    rcases hi.turn (Database.outcome_under w q p.store) with ⟨hrows, -, hx⟩ | ⟨a, ha, hstores⟩
    · exact ⟨h.update hrows.extends (.inr hx), .inl hrows⟩
    · exact ⟨h.update hstores.extends (.inl ⟨a, ha⟩), .inr ⟨a, hstores⟩⟩

end Pool

/-! ## Lawful actions

* `Action.Lawful`: an action may always be denied as long as it has stored nothing; its rules;
* `Renamed`: a candidate under the slug that it asks for, or under a variant of it;
* `Action.lawful_createLogline`, `Action.lawful_createStoryPlan`: a creation stores a renamed
  candidate, however often it is refused on the way.
-/

variable {permit : Query → Tables → Prop} {K : Tables → Prop}

namespace Action

/-- The action stores only what `permit` allows. Unless it is denied, it ends with `idle` if it has
stored nothing, and with `stored` after it has stored a row. -/
def Lawful (permit : Query → Tables → Prop) {α : Type} (idle : α → Tables → Prop)
    (stored : Json → α → Prop) (K : Tables → Prop) (x : Action α) : Prop :=
  Prog.Lawful permit (fun r t => ∀ a, r = .ok a → idle a t) (fun json r =>
    ∃ a, r = .ok a ∧ stored json a) K
    x.run

section Rules

variable {α β : Type} {idle : α → Tables → Prop} {idle' : β → Tables → Prop}
  {stored : Json → α → Prop} {stored' : Json → β → Prop} {x : Action α} {f : α → Action β}

theorem Lawful.bind (h : Lawful permit idle stored K x)
    (hf : ∀ a, Lawful permit idle' stored' (idle a) (f a))
    (hs : ∀ json a, stored json a → ∃ b, f a = pure b ∧ stored' json b) :
    Lawful permit idle' stored' K (x >>= f) := by
  refine Prog.Lawful.bind (f := ExceptT.bindCont f) h (fun r => ?_) fun json r => ?_
  · cases r with
    | error d => exact .done fun t _ b hb => by cases hb
    | ok a => exact (hf a).mono fun t ht => ht a rfl
  · rintro ⟨a, rfl, ha⟩
    obtain ⟨b, hb, hstored⟩ := hs json a ha
    exact ⟨.ok b, hb, b, rfl, hstored⟩

theorem Lawful.bind_idle (h : Lawful permit idle (fun _ _ => False) K x)
    (hf : ∀ a, Lawful permit idle' stored' (idle a) (f a)) :
    Lawful permit idle' stored' K (x >>= f) :=
  h.bind hf fun _ _ => False.elim

theorem Lawful.imp {idle' : α → Tables → Prop} (h : Lawful permit idle stored K x)
    (hidle : ∀ a t, idle a t → idle' a t) : Lawful permit idle' stored K x :=
  Prog.Lawful.imp h (fun _ t ha a hr => hidle a t (ha a hr)) fun _ _ => id

theorem lawful_pure {a : α} (h : ∀ t, K t → idle a t) : Lawful permit idle stored K (pure a) := by
  refine .done fun t ht b hb => ?_
  rw [← Except.ok.inj hb]
  exact h t ht

theorem lawful_check (r : Except Denial α) :
    Lawful permit (fun a t => K t ∧ r = .ok a) stored K (check r) :=
  .done fun _ ht _ ha => ⟨ht, ha⟩

theorem lawful_fail (e : Error) : Lawful permit idle stored K (fail e : Action α) :=
  .done fun _ _ _ ha => by cases ha

theorem lawful_found (e : Error) (o : Option α) :
    Lawful permit (fun a t => K t ∧ o = some a) stored K (found e o) := by
  cases o with
  | none => exact lawful_fail e
  | some a => exact lawful_pure fun t ht => ⟨ht, rfl⟩

theorem lawful_query {q : Query} (hq : q.stores = false) {stored : Json → q.Result → Prop} :
    Lawful permit (fun result t => K t ∧ q.Told t result) stored K (query q) := by
  refine .read hq (fun f => .done fun t _ a ha => by cases ha) fun result =>
    .done fun t ht a ha => ?_
  rw [← Except.ok.inj ha]
  exact ht

theorem lawful_store {q : Query} (hq : q.stores = true) (hpermit : ∀ t, K t → permit q t) :
    Lawful permit (fun _ _ => False) (fun json result => json = q.shown result) K (query q) :=
  .store hq hpermit (fun f => .done fun t _ a ha => by cases ha)
    fun result => ⟨_, rfl, result, rfl, rfl⟩

end Rules

end Action

/-! ### Creations -/

/-- A candidate as it is wanted, or under a variant of its slug that is a slug itself. -/
def Renamed {κ : Type} [Candidate κ] (wanted d : κ) : Prop :=
  d = wanted ∨ ∃ n : UInt32, Slug.check (Slug.variant (Candidate.slug wanted) n) = .ok () ∧
    d = Candidate.withSlug wanted (Slug.variant (Candidate.slug wanted) n)

section Creation

variable {κ ε : Type} [Candidate κ] {allowed : κ → Prop} {base : String} {scope : Scope}
  {order : VariantOrder} {shown : ε → Json}

/-- A creation is lawful if it stores once or fails. -/
def LawfulCreation (permit : Query → Tables → Prop) {φ : Type} (shown : ε → Json)
    (K : Tables → Prop) (p : Prog TableStore (Except φ ε)) : Prop :=
  Prog.Lawful permit (fun r t => K t ∧ r.isOk = false)
    (fun json r => ∃ entity, r = .ok entity ∧ json = shown entity) K p

variable {intake : (c : CandidateCall κ) → Prog TableStore (CandidateCall.Answer ε c)}
  {retries : Nat}

theorem lawful_afterLookup
    (hnext : ∀ attempt d, allowed d →
      LawfulCreation permit shown K (Prog.interpret (I := CandidateStore κ ε) intake
      (attemptFrom base scope order retries attempt d)))
    (hrenamed : ∀ d n, allowed d → Slug.check (Slug.variant base n) = .ok () →
      allowed (Candidate.withSlug d (Slug.variant base n)))
    (attempt : UInt32) {d : κ} (hd : allowed d) (latest : Except Error (Option String)) :
    LawfulCreation permit shown K (Prog.interpret (I := CandidateStore κ ε) intake
      (afterLookup base scope order retries attempt d latest)) := by
  cases latest with
  | error cause => exact .done fun _ ht => ⟨ht, rfl⟩
  | ok latest =>
    simp only [afterLookup, Except.bind]
    cases hn : nextVariant base latest with
    | error cause => exact .done fun _ ht => ⟨ht, rfl⟩
    | ok next =>
      simp only
      split
      · exact .done fun _ ht => ⟨ht, rfl⟩
      · obtain ⟨-, hslug, hcheck⟩ := nextVariant_ok hn
        rw [hslug] at hcheck ⊢
        exact hnext _ _ (hrenamed d _ hd hcheck)

/-- A creation whose inserts store an allowed candidate each is lawful: only its last one stores. -/
theorem lawful_attemptFrom (allowed : κ → Prop)
    (hinsert : ∀ d, allowed d → LawfulCreation permit shown K (intake (.insert d)))
    (hlatest : Prog.Lawful permit (fun _ t => K t) (fun _ _ => False) K
      (intake (.latest base scope order)))
    (hrenamed : ∀ d n, allowed d → Slug.check (Slug.variant base n) = .ok () →
      allowed (Candidate.withSlug d (Slug.variant base n)))
    (retries : Nat) (attempt : UInt32) {d : κ} (hd : allowed d) : LawfulCreation permit shown K
      (Prog.interpret (I := CandidateStore κ ε) intake
        (attemptFrom base scope order retries attempt d)) := by
  -- on the attempts that are left: what is known outlives a refused insert
  induction retries generalizing attempt d with
  | zero =>
    rw [attemptFrom_eq]
    refine Prog.Lawful.bind (hinsert d hd) (fun r => ?_) fun json r => ?_
    · cases r with
      | error e => exact .done fun _ ht => ⟨ht.1, rfl⟩
      | ok entity => exact .done fun _ ht => by cases ht.2
    · rintro ⟨entity, rfl, hjson⟩
      exact ⟨_, rfl, entity, rfl, hjson⟩
  | succ retries ih =>
    rw [attemptFrom_eq]
    refine Prog.Lawful.bind (hinsert d hd) (fun r => ?_) fun json r => ?_
    · cases r with
      | error e =>
        simp only [afterInsert]
        split
        · exact Prog.Lawful.bind (hlatest.mono fun _ ht => ht.1)
            (fun latest => lawful_afterLookup (fun attempt d => ih attempt) hrenamed attempt
              hd latest)
            fun _ _ => False.elim
        · exact .done fun _ ht => ⟨ht.1, rfl⟩
      | ok entity => exact .done fun _ ht => by cases ht.2
    · rintro ⟨entity, rfl, hjson⟩
      exact ⟨_, rfl, entity, rfl, hjson⟩

theorem lawful_intake {q : Query} (hq : q.stores = true) (hpermit : ∀ t, K t → permit q t)
    (e : Failure → Error) :
    LawfulCreation permit q.shown K ((query q).bind fun r => .done (r.mapError e)) :=
  .store hq hpermit (fun _ => .done fun _ ht => ⟨ht, rfl⟩) fun result => ⟨_, rfl, result, rfl, rfl⟩

theorem lawful_ofProg {φ : Type} {p : Prog TableStore (Except φ ε)}
    (h : LawfulCreation permit shown K p) (deny : φ → Denial) :
    Action.Lawful permit (fun _ _ => False) (fun json entity => json = shown entity) K
      (Action.ofProg deny p) := by
  refine Prog.Lawful.bind h (fun r => ?_) fun json r => ?_
  · cases r with
    | error e => exact .done fun _ _ a ha => by cases ha
    | ok entity => exact .done fun _ ht => by cases ht.2
  · rintro ⟨entity, rfl, hjson⟩
    exact ⟨_, rfl, entity, rfl, hjson⟩

end Creation

theorem Renamed.withSlug {κ : Type} [Candidate κ] {wanted d : κ} (h : Renamed wanted d)
    (hlaw : ∀ (d : κ) a b, Candidate.withSlug (Candidate.withSlug d a) b = Candidate.withSlug d b)
    {n : UInt32} (hn : Slug.check (Slug.variant (Candidate.slug wanted) n) = .ok ()) :
    Renamed wanted (Candidate.withSlug d (Slug.variant (Candidate.slug wanted) n)) := by
  rcases h with rfl | ⟨m, -, rfl⟩
  · exact .inr ⟨n, hn, rfl⟩
  · exact .inr ⟨n, hn, hlaw _ _ _⟩

/-- **The creation of a logline** stores it as it is wanted or renamed, and shows the row. -/
theorem Action.lawful_createLogline (policy : RetryPolicy) {wanted : NewLogline}
    (hpermit : ∀ d, Renamed wanted d → ∀ t, K t → permit (.insertLogline d) t) :
    Action.Lawful permit (fun _ _ => False) (fun json row => json = row.toJson) K
      (Action.createLogline policy wanted) := by
  refine lawful_ofProg (lawful_attemptFrom (Renamed wanted) (fun d hd => ?_) ?_ ?_ _ _ (.inl rfl)) _
  · exact lawful_intake rfl (hpermit d hd) _
  · exact .read rfl (fun _ => .done fun _ ht => ht) fun _ => .done fun _ ht => ht.1
  · exact fun d n hd hn => hd.withSlug (fun _ _ _ => rfl) hn

theorem Action.lawful_createStoryPlan (policy : RetryPolicy) {wanted : NewStoryPlan}
    (hpermit : ∀ d, Renamed wanted d → ∀ t, K t → permit (.createPlan d) t) :
    Action.Lawful permit (fun _ _ => False) (fun json row => json = row.toJson) K
      (Action.createStoryPlan policy wanted) := by
  refine lawful_ofProg (lawful_attemptFrom (Renamed wanted) (fun d hd => ?_) ?_ ?_ _ _ (.inl rfl)) _
  · exact lawful_intake rfl (hpermit d hd) _
  · exact .read rfl (fun _ => .done fun _ ht => ht) fun _ => .done fun _ ht => ht.1
  · exact fun d n hd hn => hd.withSlug (fun _ _ _ => rfl) hn

end Storyline
