import Mathlib
import Storyline.Proofs.Attempts
import Storyline.Proofs.Creations
import Storyline.Proofs.Outcomes
import Storyline.Proofs.Stamps
import Storyline.Registry
import Storyline.Store.Query

/-!
# A registry in place of another store

A creation learns little from a store: whether a candidate was stored, and which variant comes next.
A registry that tells the same can stand in for the store.

* `outline`, `proposal`: what a creation learns from an answer;
* `StandsIn`: a registry answers like another store, with `StandsIn.attemptFrom` for one creation
  and `StandsIn.endings` for any number of them.
-/

namespace Storyline

open Registry (Entry Entity)

/-- The part of a candidate that a registry keeps. -/
def Registry.entryOf {κ : Type} [Candidate κ] (d : κ) : Entry :=
  ⟨Candidate.slug d, Candidate.scope d⟩

/-- What a creation learns from the answer to an insert. -/
def outline {ε : Type} (slug : ε → String) (answer : Except Error ε) : Except ErrorKind String :=
  (answer.map slug).mapError Error.kind

/-- What a creation learns from the answer to a lookup. -/
def proposal (base : String) (answer : Except Error (Option String)) :
    Except ErrorKind NumberedSlug :=
  (answer.bind (nextVariant base)).mapError Error.kind

section StandsIn

variable {κ ε σ : Type} [Candidate κ]

/-- Registries answer like a store: a registry that is `like` the store tells a creation the same,
and stays like it. -/
structure StandsIn (h : Prog.Handler (CandidateStore κ ε) σ) (slug : ε → String)
    (storable : κ → Prop) (like : Registry → σ → Prop) : Prop where
  insert : ∀ {r s d}, like r s → storable d →
    outline slug (h (.insert d) s).1 = outline Entity.slug
      (Registry.handle (.insert (Registry.entryOf d)) r).1 ∧
      like (Registry.handle (.insert (Registry.entryOf d)) r).2 (h (.insert d) s).2
  latest : ∀ {r s} {d : κ} (order : VariantOrder), like r s → storable d →
    let c {κ : Type} : CandidateCall κ := .latest (Candidate.slug d) (Candidate.scope d) order
    proposal (Candidate.slug d) (h c s).1 = proposal (Candidate.slug d) (Registry.handle c r).1 ∧
      like (Registry.handle c r).2 (h c s).2
  /-- A candidate may be stored under a variant of a slug if it may be stored under the slug. -/
  withSlug : ∀ {d d' : κ} (n : UInt32), storable d → storable d' →
    storable (Candidate.withSlug d (Slug.variant (Candidate.slug d') n))
  entry : ∀ (d : κ) (slug : String),
    Registry.entryOf (Candidate.withSlug d slug) = ⟨slug, Candidate.scope d⟩

variable {h : Prog.Handler (CandidateStore κ ε) σ} {slug : ε → String} {storable : κ → Prop}
  {like : Registry → σ → Prop} {r : Registry} {s : σ}

theorem outline_eq {ε' : Type} {slug' : ε' → String} {x : Except Error ε} {y : Except Error ε'}
    (h : outline slug x = outline slug' y) :
    (∃ a b, x = .ok a ∧ y = .ok b ∧ slug a = slug' b) ∨
      ∃ e e', x = .error e ∧ y = .error e' ∧ e.kind = e'.kind := by
  cases x with
  | ok a =>
    cases y with
    | ok b => exact .inl ⟨a, b, rfl, rfl, Except.ok.inj h⟩
    | error e' => cases h
  | error e =>
    cases y with
    | ok b => cases h
    | error e' => exact .inr ⟨e, e', rfl, rfl, Except.error.inj h⟩

theorem proposal_eq {base : String} {x y : Except Error (Option String)}
    (h : proposal base x = proposal base y) :
    (∃ next, x.bind (nextVariant base) = .ok next ∧ y.bind (nextVariant base) = .ok next ∧
        next.slug = Slug.variant base next.number) ∨
      ∃ e e', x.bind (nextVariant base) = .error e ∧ y.bind (nextVariant base) = .error e' ∧
        e.kind = e'.kind := by
  unfold proposal at h
  cases hx : x.bind (nextVariant base) with
  | ok next =>
    cases hy : y.bind (nextVariant base) with
    | ok next' =>
      rw [hx, hy] at h
      refine .inl ⟨next, rfl, congrArg Except.ok (Except.ok.inj h).symm, ?_⟩
      cases x with
      | error e => cases hx
      | ok latest => exact (nextVariant_ok hx).2.1
    | error e' =>
      rw [hx, hy] at h
      cases h
  | error e =>
    cases hy : y.bind (nextVariant base) with
    | ok next' =>
      rw [hx, hy] at h
      cases h
    | error e' =>
      rw [hx, hy] at h
      exact .inr ⟨e, e', rfl, rfl, Except.error.inj h⟩

/-- **A creation cannot tell the registry from the store**, from any attempt on. -/
theorem StandsIn.attemptFrom (hs : StandsIn h slug storable like) {d₀ : κ} (hd₀ : storable d₀)
    (order : VariantOrder) (retries : Nat) (attempt : UInt32) {d : κ} (hd : storable d)
    (hscope : Candidate.scope d = Candidate.scope d₀) (hlike : like r s) :
    let x := (attemptFrom (Candidate.slug d₀) (Candidate.scope d₀) order retries attempt d).run h s
    let y := (attemptFrom (Candidate.slug d₀) (Candidate.scope d₀) order retries attempt
      (Registry.entryOf d)).run Registry.handle r
    ending slug x.1 = ending Entity.slug y.1 ∧ like y.2 x.2 := by
  -- on the retries that are left: the two runs are refused together, and then propose the same
  -- variant
  induction retries generalizing attempt d r s with
  | zero =>
    obtain ⟨hanswer, hlike⟩ := hs.insert hlike hd
    rw [attemptFrom_eq, attemptFrom_eq, Prog.run_ask, Prog.run_ask]
    rcases outline_eq hanswer with ⟨a, b, ha, hb, hslug⟩ | ⟨e, e', he, he', hkind⟩
    · rw [ha, hb]
      exact ⟨congrArg Ending.stored hslug, hlike⟩
    · rw [he, he']
      exact ⟨congrArg (Ending.insertFailed (Candidate.slug d) attempt) hkind, hlike⟩
  | succ retries ih =>
    obtain ⟨hanswer, hlike⟩ := hs.insert hlike hd
    rw [attemptFrom_eq, attemptFrom_eq, Prog.run_ask, Prog.run_ask]
    rcases outline_eq hanswer with ⟨a, b, ha, hb, hslug⟩ | ⟨e, e', he, he', hkind⟩
    · rw [ha, hb]
      exact ⟨congrArg Ending.stored hslug, hlike⟩
    · rw [he, he']
      simp only [afterInsert, Error.isSlugTaken_iff, hkind]
      by_cases htaken : e'.kind = .slugTaken
      · rw [if_pos htaken, if_pos htaken, Prog.run_ask, Prog.run_ask]
        obtain ⟨hanswer, hlike⟩ := hs.latest order hlike hd₀
        simp only [afterLookup]
        rcases proposal_eq hanswer with ⟨next, hx, hy, hslug⟩ | ⟨e, e', hx, hy, hkind⟩
        · rw [hx, hy]
          by_cases hsize : attempt.toNat + 1 = UInt32.size
          · simp only [if_pos hsize]
            exact ⟨rfl, hlike⟩
          · simp only [if_neg hsize]
            have hentry : Candidate.withSlug (Registry.entryOf d) next.slug =
                Registry.entryOf (Candidate.withSlug d next.slug) := (hs.entry d next.slug).symm
            rw [hentry]
            refine ih (attempt + 1) (hslug ▸ hs.withSlug next.number hd hd₀) ?_ hlike
            exact (congrArg Entry.scope (hs.entry d next.slug)).trans hscope
        · rw [hx, hy]
          exact ⟨congrArg (Ending.resolveFailed (Candidate.slug d₀)) hkind, hlike⟩
      · rw [if_neg htaken, if_neg htaken]
        exact ⟨congrArg (Ending.insertFailed (Candidate.slug d) attempt) hkind, hlike⟩

theorem StandsIn.create (hs : StandsIn h slug storable like) (policy : RetryPolicy) {d : κ}
    (hd : storable d) (hlike : like r s) :
    let x := (create policy d).run h s
    let y := (create policy (Registry.entryOf d)).run Registry.handle r
    ending slug x.1 = ending Entity.slug y.1 ∧ like y.2 x.2 :=
  hs.attemptFrom hd policy.order _ 1 hd rfl hlike

/-- **Creations one after the other** end alike. -/
theorem StandsIn.endings (hs : StandsIn h slug storable like) {jobs : List (RetryPolicy × κ)}
    (hjobs : ∀ job ∈ jobs, storable job.2) (hlike : like r s) :
    endings h slug (jobs.map fun job => Storyline.create job.1 job.2) s =
      endings Registry.handle Entity.slug
        (jobs.map fun job => Storyline.create job.1 (Registry.entryOf job.2)) r := by
  induction jobs generalizing r s with
  | nil => rfl
  | cons job jobs ih =>
    obtain ⟨hending, hlike⟩ := hs.create job.1 (hjobs job List.mem_cons_self) hlike
    simp only [List.map_cons, Storyline.endings]
    rw [hending, ih (fun job hjob => hjobs job (List.mem_cons_of_mem _ hjob)) hlike]

end StandsIn

/-! ## A registry in place of the tables

* `Mirrors`: a registry holds the slugs of a table;
* `KeptIn`: a store keeps its candidates in a table, so that a registry can stand in for it
  (`KeptIn.standsIn`), with `keptIn_loglines` and `keptIn_plans`;
* `creations_endings`: creations end alike in a registry and in the tables.
-/

/-! ### Tables -/

/-- What a registry keeps of a logline. -/
def Logline.entry (row : Logline) : Entry := ⟨row.slug, .user row.userId⟩

/-- What a registry keeps of a reservation. -/
def SlugReservation.entry (row : SlugReservation) : Entry := ⟨row.slug, .everywhere⟩

/-- The slugs of a scope among the rows, with their stamps. -/
def Table.stamped {ρ : Type} (entry : ρ → Entry) (stamp : ρ → Stamp) (t : Table ρ) (scope : Scope) :
    List (String × Stamp) :=
  (t.rows.filter fun row => (entry row).scope = scope).map fun row => ((entry row).slug, stamp row)

/-- A registry holds the slugs of a table, whose rows are in the order of their stamps. -/
structure Mirrors {ρ : Type} (entry : ρ → Entry) (stamp : ρ → Stamp) (table : Tables → Table ρ)
    (w : Conditions) (r : Registry) (s : Tables × Nat) : Prop where
  reliable : r.Reliable
  rows : r.rows = (table s.1).rows.map entry
  chronological : (table s.1).Chronological stamp (w.time s.2)

section Mirrors

variable {ρ : Type} {entry : ρ → Entry} {stamp : ρ → Stamp} {table : Tables → Table ρ}
  {w : Conditions} {r r' : Registry} {t t' : Tables} {n : Nat}

theorem mirrors_empty (htable : table {} = {}) : Mirrors entry stamp table w {} ({}, 0) :=
  ⟨⟨rfl, rfl, rfl⟩, by rw [htable]; rfl, by rw [htable]; exact Table.chronological_empty stamp _⟩

theorem Mirrors.quiet (hm : Mirrors entry stamp table w r (t, n)) (htime : Monotone w.time)
    (hr' : r'.Reliable) (hrows : r'.rows = r.rows) (ht : (table t).SameRows (table t')) :
    Mirrors entry stamp table w r' (t', n + 1) :=
  ⟨hr', by rw [hrows, hm.rows, ht.rows],
    (hm.chronological.of_sameRows ht).mono (htime (Nat.le_succ n))⟩

theorem Mirrors.append (hm : Mirrors entry stamp table w r (t, n)) (htime : Monotone w.time)
    (hr' : r'.Reliable) {row : ρ} (hrows : r'.rows = r.rows ++ [entry row])
    (ht : table t' = (table t).append row) (hrow : stamp row = ⟨w.time n, (table t).nextId⟩) :
    Mirrors entry stamp table w r' (t', n + 1) := by
  refine ⟨hr', ?_, ?_⟩
  · rw [hrows, hm.rows, ht, Table.append, List.map_append]
    rfl
  · rw [ht]
    exact (hm.chronological.append hrow).mono (htime (Nat.le_succ n))

theorem Mirrors.nextVariant (hm : Mirrors entry stamp table w r (t, n)) (base : String)
    (scope : Scope) (order : VariantOrder) :
    (nextVariant base
        (latestVariant? base order ((table t).stamped entry stamp scope))).mapError Error.kind =
      (Storyline.nextVariant base
        (Registry.latest? r.rows base scope order)).mapError Error.kind := by
  refine nextVariant_latestVariant? ?_ ?_ order
  · rw [Table.stamped, hm.rows, Registry.slugsOf, List.filter_map, List.map_map, List.map_map]
    rfl
  · rw [Table.stamped, List.pairwise_map]
    exact hm.chronological.sorted.filter _

end Mirrors

section KeptIn

open Registry

variable {κ ε ρ : Type} [Candidate κ]

/-- A store keeps candidates as rows of a table: it refuses a taken slug, stores any other under the
next stamp, and looks up the latest variant among the rows. -/
structure KeptIn (h : Prog.Handler (CandidateStore κ ε) (Tables × Nat)) (slug : ε → String)
    (storable : κ → Prop) (entry : ρ → Entry) (stamp : ρ → Stamp) (table : Tables → Table ρ)
    (w : Conditions) : Prop where
  refuses : ∀ t n {d : κ}, storable d → entryOf d ∈ (table t).rows.map entry →
    ∃ e t', h (.insert d) (t, n) = (.error e, t', n + 1) ∧ e.kind = .slugTaken ∧
      (table t).SameRows (table t')
  stores : ∀ t n {d : κ}, storable d → entryOf d ∉ (table t).rows.map entry →
    ∃ entity row t', h (.insert d) (t, n) = (.ok entity, t', n + 1) ∧
      slug entity = Candidate.slug d ∧
      table t' = (table t).append row ∧ entry row = entryOf d ∧
      stamp row = ⟨w.time n, (table t).nextId⟩
  latest : ∀ t n {d : κ} (order : VariantOrder), storable d →
    h (.latest (Candidate.slug d) (Candidate.scope d) order) (t, n) =
      (.ok (latestVariant? (Candidate.slug d) order
        ((table t).stamped entry stamp (Candidate.scope d))), t, n + 1)
  withSlug : ∀ {d d' : κ} (n : UInt32), storable d → storable d' →
    storable (Candidate.withSlug d (Slug.variant (Candidate.slug d') n))
  entry_withSlug : ∀ (d : κ) (slug : String),
    entryOf (Candidate.withSlug d slug) = ⟨slug, Candidate.scope d⟩

/-- **A registry stands in for a table**, as long as the clock does not go back. -/
theorem KeptIn.standsIn {h : Prog.Handler (CandidateStore κ ε) (Tables × Nat)} {slug : ε → String}
    {storable : κ → Prop} {entry : ρ → Entry} {stamp : ρ → Stamp} {table : Tables → Table ρ}
    {w : Conditions} (hk : KeptIn h slug storable entry stamp table w) (htime : Monotone w.time) :
    StandsIn h slug storable (Mirrors entry stamp table w) where
  insert := by
    rintro r ⟨t, n⟩ d hm hd
    have hr := hm.reliable.handle (.insert (entryOf d))
    by_cases he : entryOf d ∈ r.rows
    · obtain ⟨e, t', hrun, hkind, hrows⟩ := hk.refuses t n hd (hm.rows ▸ he)
      rw [handle_insert_taken hm.reliable he] at hr ⊢
      rw [hrun]
      exact ⟨congrArg Except.error hkind, hm.quiet htime hr rfl hrows⟩
    · obtain ⟨entity, row, t', hrun, hslug, ht, hentry, hstamp⟩ := hk.stores t n hd (hm.rows ▸ he)
      rw [handle_insert_free hm.reliable he] at hr ⊢
      rw [hrun]
      exact ⟨congrArg Except.ok hslug, hm.append htime hr (by rw [hentry]) ht hstamp⟩
  latest := by
    rintro r ⟨t, n⟩ d order hm hd
    have hr := hm.reliable.handle (.latest (Candidate.slug d) (Candidate.scope d) order)
    simp only [handle_latest hm.reliable] at hr ⊢
    rw [hk.latest t n order hd]
    exact ⟨hm.nextVariant _ _ order, hm.quiet htime hr rfl (.refl _)⟩
  withSlug := hk.withSlug
  entry := hk.entry_withSlug

end KeptIn

theorem holdsNul_variant (base : String) (n : UInt32) :
    holdsNul (Slug.variant base n) = holdsNul base := by
  have hdigits : (Numeral.write n.toNat).contains '\x00' = false := by
    rw [List.contains_eq_mem, decide_eq_false_iff_not]
    exact fun hmem => absurd (Numeral.isDigit_of_mem_write hmem) (by decide)
  have hdash : ('\x00' == '-') = false := rfl
  rw [Slug.variant_eq, holdsNul, holdsNul, Slug.dashed, String.toList_ofList, List.contains_append,
    List.contains_cons, hdash, hdigits, Bool.or_false, Bool.or_false]

section Intakes

variable {w : Conditions}

open Registry

theorem any_logline_iff {rows : List Logline} {d : NewLogline} :
    (rows.any fun row => row.userId = d.userId ∧ row.slug = d.slug) = true ↔
      entryOf d ∈ rows.map Logline.entry := by
  simp [Logline.entry, entryOf, Candidate.slug, Candidate.scope, and_comm]

theorem keptIn_loglines (hw : w.Calm) :
    KeptIn (fun c s => (loglineIntake c).run (Database.under w) s)
      Logline.slug (fun d => d.texts.any holdsNul = false) Logline.entry Logline.stamp
        Tables.loglines w where
  refuses := by
    intro t n d hd he
    refine ⟨.slugTaken "Logline" d.slug, { t with loglines := t.loglines.useId }, ?_, rfl,
      Table.sameRows_useId _⟩
    simp only [loglineIntake, Prog.run_bind, query, Prog.run_ask, Prog.run_done,
      Database.under_calm hw, Database.handle_insertLogline hd, Tables.insertLogline,
      if_pos (any_logline_iff.mpr he)]
    rfl
  stores := by
    intro t n d hd he
    let row : Logline := ⟨t.loglines.nextId, d.userId, d.slug, d.name, d.content, w.time n⟩
    refine ⟨row, row, t.add (.logline row), ?_, rfl, rfl, rfl, rfl⟩
    simp only [loglineIntake, Prog.run_bind, query, Prog.run_ask, Prog.run_done,
      Database.under_calm hw, Database.handle_insertLogline hd, Tables.insertLogline,
      if_neg (mt any_logline_iff.mp he)]
    rfl
  latest := by
    intro t n d order hd
    simp only [NewLogline.texts, List.any_cons, Bool.or_eq_false_iff] at hd
    have hrun : Database.under w (.latestLogline d.userId d.slug order) (t, n) =
        (.ok (t.latestLogline? d.userId d.slug order), t, n + 1) := by
      rw [Database.under_read hw rfl, Database.answer_latestLogline hd.1]
    simp only [Candidate.slug, Candidate.scope, loglineIntake, Prog.run_bind, query, Prog.run_ask,
      Prog.run_done, hrun]
    simp [Tables.latestLogline?, Table.stamped, Logline.entry, Except.mapError]
  withSlug := by
    intro d d' n hd hd'
    simp only [NewLogline.texts, List.any_cons, Bool.or_eq_false_iff] at *
    exact ⟨(holdsNul_variant d'.slug n).trans hd'.1, hd.2⟩
  entry_withSlug := fun _ _ => rfl

theorem any_reservation_iff {rows : List SlugReservation} {d : NewStoryPlan} :
    (rows.any (·.slug = d.slug)) = true ↔ entryOf d ∈ rows.map SlugReservation.entry := by
  simp [SlugReservation.entry, entryOf, Candidate.slug, Candidate.scope]

theorem keptIn_plans (hw : w.Calm) :
    KeptIn (fun c s => (storyPlanIntake c).run (Database.under w) s)
      StoryPlan.slug (fun d => d.texts.any holdsNul = false) SlugReservation.entry
        SlugReservation.stamp
      Tables.reservations w where
  refuses := by
    intro t n d hd he
    refine ⟨.slugTaken "StoryPlan" d.slug, { t with reservations := t.reservations.useId }, ?_, rfl,
      Table.sameRows_useId _⟩
    simp only [storyPlanIntake, Prog.run_bind, query, Prog.run_ask, Prog.run_done,
      Database.under_calm hw, Database.handle_createPlan_taken hd (any_reservation_iff.mpr he)]
    rfl
  stores := by
    intro t n d hd he
    let row : SlugReservation := ⟨t.reservations.nextId, d.slug, w.time n⟩
    let plan : StoryPlan := ⟨t.plans.nextId, d.slug, d.name, d.description, d.beats, w.time n⟩
    refine ⟨plan, row, t.add (.plan row plan), ?_, rfl, rfl, rfl, rfl⟩
    simp only [storyPlanIntake, Prog.run_bind, query, Prog.run_ask, Prog.run_done,
      Database.under_calm hw, Database.handle_createPlan_free hd (mt any_reservation_iff.mp he)]
    rfl
  latest := by
    intro t n d order hd
    simp only [NewStoryPlan.texts, List.cons_append, List.any_cons, Bool.or_eq_false_iff] at hd
    have hrun : Database.under w (.latestPlan d.slug order) (t, n) =
        (.ok (t.latestPlan? d.slug order), t, n + 1) := by
      rw [Database.under_read hw rfl, Database.answer_latestPlan hd.1]
    simp only [Candidate.slug, Candidate.scope, storyPlanIntake, Prog.run_bind, query,
      Prog.run_ask, Prog.run_done, hrun]
    simp [Tables.latestPlan?, Table.stamped, SlugReservation.entry, Except.mapError]
  withSlug := by
    intro d d' n hd hd'
    simp only [NewStoryPlan.texts, List.cons_append, List.any_cons, Bool.or_eq_false_iff] at *
    exact ⟨(holdsNul_variant d'.slug n).trans hd'.1, hd.2⟩
  entry_withSlug := fun _ _ => rfl

theorem Prog.run_interpret {I J : Interface} {α σ : Type} (h : Handler J σ)
    (f : (c : I.Call) → Prog J (I.Answer c)) (p : Prog I α) (s : σ) :
    (p.interpret f).run h s = p.run (fun c s => (f c).run h s) s := by
  induction p generalizing s with
  | done a => rfl
  | ask c k ih => rw [interpret, run_bind, run_ask, ih]

theorem endings_interpret {I J : Interface} {σ ε : Type} (h : Prog.Handler J σ)
    (f : (c : I.Call) → Prog J (I.Answer c)) (slug : ε → String)
    (ps : List (Prog I (Except CreationError ε))) (s : σ) :
    endings h slug (ps.map (Prog.interpret f)) s = endings (fun c s => (f c).run h s)
      slug ps s := by
  induction ps generalizing s with
  | nil => rfl
  | cons p ps ih => rw [List.map_cons, endings, endings, Prog.run_interpret, ih]

/-- **Creations end alike in a registry and in the tables**, from empty ones and as long as the
clock does not go back: with the same slug, or at the same step with an error of the same kind. The
registry keeps the slugs of the loglines by user, those of the story plans in common. -/
theorem creations_endings (hw : w.Calm) (htime : Monotone w.time) :
    (∀ jobs : List (RetryPolicy × NewLogline), (∀ job ∈ jobs, job.2.texts.any holdsNul = false) →
      endings (Database.under w) Logline.slug (jobs.map fun job =>
        createLogline job.1 job.2) ({}, 0) =
        endings handle Entity.slug (jobs.map fun job => create job.1 (entryOf job.2)) {}) ∧
    ∀ jobs : List (RetryPolicy × NewStoryPlan), (∀ job ∈ jobs, job.2.texts.any holdsNul = false) →
      endings (Database.under w) StoryPlan.slug (jobs.map fun job =>
        createStoryPlan job.1 job.2) ({}, 0) =
        endings handle Entity.slug (jobs.map fun job => create job.1 (entryOf job.2)) {} := by
  constructor
  · intro jobs hjobs
    rw [← ((keptIn_loglines hw).standsIn htime).endings hjobs (mirrors_empty rfl),
      ← endings_interpret, List.map_map]
    rfl
  · intro jobs hjobs
    rw [← ((keptIn_plans hw).standsIn htime).endings hjobs (mirrors_empty rfl), ← endings_interpret,
      List.map_map]
    rfl

/-- All rows are of one time. The latest variant by number is `hero-7` in the registry and `hero-07`
in the tables, and one user's variants do not count for another. -/
theorem creations_endings_ties :
    let w : Conditions := ⟨fun _ => 0, fun _ => []⟩
    let loglines : List (RetryPolicy × NewLogline) :=
      [(⟨0, .newest⟩, ⟨1, "hero", "Hero", ""⟩), (⟨0, .newest⟩, ⟨1, "hero-7", "Hero", ""⟩),
        (⟨0, .newest⟩, ⟨1, "hero-07", "Hero", ""⟩), (⟨0, .newest⟩, ⟨2, "hero", "Hero", ""⟩),
        (⟨1, .highest⟩, ⟨1, "hero", "Hero", ""⟩), (⟨1, .newest⟩, ⟨2, "hero", "Hero", ""⟩),
        (⟨0, .highest⟩, ⟨2, "hero", "Hero", ""⟩)]
    let plans : List (RetryPolicy × NewStoryPlan) :=
      [(⟨0, .newest⟩, ⟨"a", "A", none, []⟩), (⟨0, .newest⟩, ⟨"a-4294967295", "A", none, []⟩),
        (⟨1, .newest⟩, ⟨"a", "A", none, []⟩)]
    endings (Database.under w) Logline.slug (loglines.map fun job =>
      createLogline job.1 job.2) ({}, 0) =
      [.stored "hero", .stored "hero-7", .stored "hero-07", .stored "hero", .stored "hero-8",
        .stored "hero-1", .insertFailed "hero" 1 .slugTaken] ∧
    endings (Database.under w) StoryPlan.slug (plans.map fun job =>
      createStoryPlan job.1 job.2) ({}, 0) =
      [.stored "a", .stored "a-4294967295", .resolveFailed "a" .internal] := by
  intro w loglines plans
  have hw : w.Calm := fun _ => rfl
  have h := creations_endings hw monotone_const
  exact ⟨(h.1 loglines (by decide)).trans (by decide +kernel),
    (h.2 plans (by decide)).trans (by decide +kernel)⟩

end Intakes

end Storyline
