import Mathlib
import Storyline.Proofs.Growth
import Storyline.Proofs.Ladder
import Storyline.Proofs.Ranking
import Storyline.Proofs.Session

/-!
# Tables and registries of one history

A registry keeps slugs in the order in which they came, a table ranks its rows by their stamps.
While the clock does not go back, that is the same order.

* `Table.Chronological`: the stamps of the rows of one table grow, with `newestFirst_of_older` for
  their listing;
* `variantsOf_newest`, `reveals_variantsOf`: lookups by age and by number;
* `nextVariant_latestVariant?`: the variant after the latest one is the same for a table as for a
  registry of its slugs.
-/

namespace Storyline

/-! ## Growing stamps -/

/-- One stamp is older than another: it is not of a later time, and its number came before. -/
def Stamp.Older (a b : Stamp) : Prop := a.createdAt ≤ b.createdAt ∧ a.id < b.id

theorem Stamp.Older.precedes {a b : Stamp} (h : a.Older b) : b.precedes a = true := by
  rw [precedes_iff]
  simp only [Older, Timestamp] at h ⊢
  omega

/-- The stamps of the rows grow from row to row, and none is to come. -/
structure Table.Chronological {ρ : Type} (stamp : ρ → Stamp) (now : Timestamp) (t : Table ρ) :
    Prop where
  sorted : t.rows.Pairwise fun a b => (stamp a).Older (stamp b)
  past : ∀ row ∈ t.rows, (stamp row).createdAt ≤ now ∧ (stamp row).id ≤ t.lastId

section Chronological

variable {ρ : Type} {stamp : ρ → Stamp} {now later : Timestamp} {t t' : Table ρ} {row : ρ}

theorem Table.chronological_empty (stamp : ρ → Stamp) (now : Timestamp) :
    Chronological stamp now ({} : Table ρ) := ⟨.nil, by simp⟩

theorem Table.Chronological.mono (h : t.Chronological stamp now) (hnow : now ≤ later) :
    t.Chronological stamp later :=
  ⟨h.sorted, fun row hrow => ⟨Int.le_trans (h.past row hrow).1 hnow, (h.past row hrow).2⟩⟩

theorem Table.Chronological.of_sameRows (h : t.Chronological stamp now) (ht : t.SameRows t') :
    t'.Chronological stamp now := by
  have := ht.lastId
  refine ⟨ht.rows ▸ h.sorted, fun row hrow => ?_⟩
  have := h.past row (ht.rows ▸ hrow)
  exact ⟨this.1, by omega⟩

theorem Table.Chronological.append (h : t.Chronological stamp now)
    (hrow : stamp row = ⟨now, t.nextId⟩) :
    (t.append row).Chronological stamp now := by
  constructor
  · rw [Table.append, List.pairwise_append]
    refine ⟨h.sorted, List.pairwise_singleton _ _, fun a ha b hb => ?_⟩
    have := h.past a ha
    rw [List.mem_singleton.mp hb, hrow]
    exact ⟨this.1, Int.lt_add_one_of_le this.2⟩
  · change ∀ a ∈ (t.append row).rows,
      (stamp a).createdAt ≤ now ∧ (stamp a).id ≤ ((t.lastId + 1 : Nat) : Int)
    refine forall_append (fun a ha => ?_) ?_
    · have := h.past a ha
      exact ⟨this.1, by omega⟩
    · rw [hrow]
      exact ⟨Int.le_refl _, Int.le_refl _⟩

end Chronological

/-- Rows whose stamps grow are listed in the opposite order. -/
theorem newestFirst_of_older {ρ : Type} {stamp : ρ → Stamp} {rows : List ρ}
    (h : rows.Pairwise fun a b => (stamp a).Older (stamp b)) :
    newestFirst stamp rows = rows.reverse := by
  have hids : (rows.map fun row => (stamp row).id).Nodup :=
    List.pairwise_map.mpr (h.imp fun hab => Int.ne_of_lt hab.2)
  refine sortBy_eq (fun a b => (stamp a).precedes_total (stamp b))
    (fun a b c => (stamp a).precedes_trans (stamp b) (stamp c)) (fun a ha b hb hab hba => ?_)
    (List.reverse_perm _).symm (List.pairwise_reverse.mpr (h.imp Stamp.Older.precedes))
  exact List.inj_on_of_nodup_map hids ha hb (Stamp.precedes_antisymm hab hba)

/-! ## Lookups -/

namespace VariantOrder

theorem precedes_highest {a b : StoredVariant} : highest.precedes a b = true ↔
    Slug.suffixValue b.digits < Slug.suffixValue a.digits ∨
      Slug.suffixValue a.digits = Slug.suffixValue b.digits ∧ b.stamp.id ≤ a.stamp.id := by
  simp [precedes]

theorem highest_total (a b : StoredVariant) :
    highest.precedes a b = true ∨ highest.precedes b a = true := by
  simp only [precedes_highest]
  omega

theorem highest_trans (a b c : StoredVariant) (hab : highest.precedes a b = true)
    (hbc : highest.precedes b c = true) : highest.precedes a c = true := by
  simp only [precedes_highest] at *
  omega

end VariantOrder

open Slug

section Lookups

variable {base : String} {slugs : List (String × Stamp)}

theorem numbers_variantsOf (base : String) (slugs : List (String × Stamp)) :
    numbers base (slugs.map Prod.fst) = (variantsOf base slugs).map fun v =>
      suffixValue v.digits := by
  rw [numbers, variantsOf, List.filterMap_map, List.map_filterMap, List.map_filterMap]
  congr 1
  funext entry
  rw [Option.map_map]
  rfl

theorem mem_variantsOf {v : StoredVariant} (hv : v ∈ variantsOf base slugs) :
    suffix? base v.slug = some v.digits := by
  obtain ⟨⟨slug, stamp⟩, -, hv⟩ := List.mem_filterMap.mp hv
  obtain ⟨digits, hd, rfl⟩ := Option.map_eq_some_iff.mp hv
  exact hd

/-- **A lookup by number** reveals the largest number, whatever the stamps. -/
theorem reveals_variantsOf (base : String) (slugs : List (String × Stamp)) :
    Reveals base (topNumber base (slugs.map Prod.fst)) (latestVariant? base .highest slugs) := by
  have hnumbers := numbers_variantsOf base slugs
  rw [latestVariant?]
  cases hhead : (sortBy VariantOrder.highest.precedes (variantsOf base slugs)).head? with
  | none =>
    have hnil : variantsOf base slugs = [] := by
      have := sortBy_perm VariantOrder.highest.precedes (variantsOf base slugs)
      rwa [List.head?_eq_none_iff.mp hhead, List.nil_perm] at this
    refine .none ?_
    rw [topNumber, hnumbers, hnil]
    rfl
  | some v =>
    obtain ⟨hv, hfirst⟩ :=
      precedes_of_head? VariantOrder.highest_total VariantOrder.highest_trans hhead
    -- the first of the ranking has a number of its own, and no variant a larger one
    refine .some (mem_variantsOf hv) (.inl (Nat.le_antisymm ?_ (topNumber_le fun n hn => ?_)))
    · refine le_topNumber_of_mem ?_
      rw [hnumbers]
      exact List.mem_map_of_mem hv
    · rw [hnumbers] at hn
      obtain ⟨u, hu, rfl⟩ := List.mem_map.mp hn
      have := VariantOrder.precedes_highest.mp (hfirst u hu)
      omega

/-- **A lookup by age** finds the last of the variants, if their stamps grow. -/
theorem latestVariant?_newest (h : slugs.Pairwise fun a b => a.2.Older b.2) :
    latestVariant? base .newest slugs =
      (variantsOf base slugs).getLast?.map StoredVariant.slug := by
  have hsorted : (variantsOf base slugs).Pairwise fun a b => a.stamp.Older b.stamp := by
    refine h.filterMap _ fun a b hab v hv v' hv' => ?_
    obtain ⟨digits, -, rfl⟩ := Option.map_eq_some_iff.mp hv
    obtain ⟨digits', -, rfl⟩ := Option.map_eq_some_iff.mp hv'
    exact hab
  have hreverse : sortBy VariantOrder.newest.precedes (variantsOf base slugs) =
      (variantsOf base slugs).reverse :=
    newestFirst_of_older hsorted
  rw [latestVariant?, hreverse, List.head?_reverse]

/-- **The next variant** is the same for a table as for a registry with its slugs, up to the words
of an error. A lookup by number may find different rows, for ties go to the newest in one and to the
oldest in the other; but they have the same number. -/
theorem nextVariant_latestVariant? {rows : List Registry.Entry} {scope : Scope}
    (hslugs : Registry.slugsOf rows scope = slugs.map Prod.fst)
    (h : slugs.Pairwise fun a b => a.2.Older b.2) (order : VariantOrder) :
    (nextVariant base (latestVariant? base order slugs)).mapError Error.kind =
      (nextVariant base (Registry.latest? rows base scope order)).mapError Error.kind := by
  cases order with
  | newest =>
    have hvariants : Registry.variants rows base scope =
        (variantsOf base slugs).map fun v => (v.slug, v.digits) := by
      rw [Registry.variants_eq, hslugs, variantsOf, List.filterMap_map, List.map_filterMap]
      congr 1
      funext ⟨slug, stamp⟩
      simp only [Function.comp_apply, Option.map_map]
      rfl
    rw [latestVariant?_newest h, Registry.latest?, hvariants, List.getLast?_map, Option.map_map]
    rfl
  | highest =>
    rw [(reveals_variantsOf base slugs).nextVariant,
      (Registry.reveals_highest rows base scope).nextVariant, hslugs]

end Lookups

end Storyline

/-! ## Rows in the order of their stamps

Every row is stamped with the time of the query that stored it. While the clock does not go back,
the rows of each table come in the order of their stamps, also among rows of one time.

* `Tables.Chronological`: this holds of all tables, with one lemma for each insert;
* `Database.Timely`: the steps of a query that keep it, with `Database.chronological_handle`;
* `Prog.run_chronological`, `session_chronological`: programs and sessions.
-/

namespace Storyline

/-- The rows of all tables come in the order of their stamps, and none is to come. -/
structure Tables.Chronological (now : Timestamp) (t : Tables) : Prop where
  loglines : t.loglines.Chronological Logline.stamp now
  reservations : t.reservations.Chronological SlugReservation.stamp now
  plans : t.plans.Chronological StoryPlan.stamp now
  sheets : t.sheets.Chronological BeatsSheet.stamp now

namespace Tables

variable {t t' : Tables} {now later : Timestamp}

theorem chronological_empty (now : Timestamp) : Chronological now {} :=
  ⟨Table.chronological_empty _ _, Table.chronological_empty _ _, Table.chronological_empty _ _,
    Table.chronological_empty _ _⟩

theorem Chronological.mono (h : t.Chronological now) (hnow : now ≤ later) : t.Chronological later :=
  ⟨h.loglines.mono hnow, h.reservations.mono hnow, h.plans.mono hnow, h.sheets.mono hnow⟩

theorem Chronological.of_sameRows (h : t.Chronological now) (ht : t.SameRows t') :
    t'.Chronological now :=
  ⟨h.loglines.of_sameRows ht.loglines, h.reservations.of_sameRows ht.reservations,
    h.plans.of_sameRows ht.plans, h.sheets.of_sameRows ht.sheets⟩

/-! ### Inserts -/

theorem Chronological.insertLogline (h : t.Chronological now) (d : NewLogline) :
    (insertLogline now d t).2.Chronological now := by
  unfold Tables.insertLogline
  split
  · exact { h with loglines := h.loglines.of_sameRows (Table.sameRows_useId _) }
  · exact { h with loglines := h.loglines.append rfl }

theorem Chronological.reserveSlug (h : t.Chronological now) (slug : String) :
    (reserveSlug now slug t).2.Chronological now := by
  unfold Tables.reserveSlug
  split
  · exact { h with reservations := h.reservations.of_sameRows (Table.sameRows_useId _) }
  · exact { h with reservations := h.reservations.append rfl }

theorem Chronological.insertPlan (h : t.Chronological now) (slug : String) (d : StoryPlanRevision) :
    (insertPlan now slug d t).2.Chronological now := by
  unfold Tables.insertPlan
  split
  · exact { h with plans := h.plans.append rfl }
  · exact { h with plans := h.plans.of_sameRows (Table.sameRows_useId _) }

theorem Chronological.insertSheet (h : t.Chronological now) (d : NewBeatsSheet) :
    (insertSheet now d t).2.Chronological now := by
  have hunused : Chronological now { t with sheets := t.sheets.useId } :=
    { h with sheets := h.sheets.of_sameRows (Table.sameRows_useId _) }
  unfold Tables.insertSheet
  split
  · exact hunused
  · split
    · exact hunused
    · exact { h with sheets := h.sheets.append rfl }

end Tables

/-! ### Queries -/

namespace Database

variable {α β : Type}

/-- A step that takes no time and leaves the rows in the order of their stamps. -/
def Timely (step : Database → Except Failure α × Database) : Prop :=
  ∀ db : Database, db.tables.Chronological db.now →
    (step db).2.now = db.now ∧ (step db).2.tables.Chronological db.now

theorem timely_execute (statement : Statement) (texts documentTexts : List String)
    {effect : Timestamp → Tables → Except Failure α × Tables}
    (h : ∀ now (t : Tables), t.Chronological now → (effect now t).2.Chronological now) :
    Timely fun db => db.execute statement texts documentTexts effect := by
  intro db hdb
  have hnow : (db.execute statement texts documentTexts effect).2.now = db.now := by
    unfold execute
    split
    · rfl
    · split
      · rfl
      · split <;> rfl
  refine ⟨hnow, ?_⟩
  rcases execute_cases statement texts documentTexts effect db with ⟨f, db', he, ht⟩ | ⟨outages, he⟩
  · simp only [he, ht]
    exact hdb
  · simp only [he]
    exact h db.now db.tables hdb

theorem timely_andThen {first : Database → Except Failure α × Database}
    {next : α → Database → Except Failure β × Database} (hf : Timely first)
    (hn : ∀ a, Timely (next a)) :
    Timely (andThen first next) := by
  intro db hdb
  have hfirst := hf db hdb
  unfold andThen
  split
  · next he => rwa [he] at hfirst
  · next a db₁ he =>
    rw [he] at hfirst
    obtain ⟨hnow, htables⟩ := hfirst
    have hnext := hn a db₁ (hnow ▸ htables)
    simp only at hnow
    rwa [hnow] at hnext

theorem timely_mark (statement : Statement) : Timely (mark statement) :=
  timely_execute statement [] [] fun _ _ h => h

theorem transact_of_ok {step : Database → Except Failure α × Database} {db : Database} {a : α}
    (h : (transact step db).1 = .ok a) : transact step db = step db := by
  unfold transact at h ⊢
  split
  · next he =>
    rw [he] at h
    cases h
  · next he => rw [he]

theorem chronological_createPlan (d : NewStoryPlan) {db : Database}
    (hdb : db.tables.Chronological db.now) :
    (createPlan d db).2.tables.Chronological db.now := by
  have houtcome := outcome_createPlan d db
  cases hanswer : (createPlan d db).1 with
  | error f =>
    rw [hanswer] at houtcome
    exact hdb.of_sameRows houtcome.of_failed
  | ok plan =>
    have hsteps : Timely (andThen (mark .openTransaction) fun _ =>
      andThen (reserveSlug d.slug) fun _ =>
        andThen (insertPlan d.slug d.revision) fun plan =>
          andThen (mark .commit) fun _ db => (.ok plan, db)) := by
      refine timely_andThen (timely_mark _) fun _ => ?_
      refine timely_andThen (timely_execute _ _ _ fun _ _ h => h.reserveSlug d.slug) fun _ => ?_
      refine timely_andThen (timely_execute _ _ _ fun _ _ h => h.insertPlan d.slug d.revision)
        fun _ => ?_
      exact timely_andThen (timely_mark _) fun _ _ hdb => ⟨rfl, hdb⟩
    unfold createPlan at hanswer ⊢
    rw [transact_of_ok hanswer]
    exact (hsteps db hdb).2

/-- **Every query leaves the rows in the order of their stamps.** -/
theorem chronological_handle (q : Query) {db : Database} (hdb : db.tables.Chronological db.now) :
    (handle q db).2.tables.Chronological db.now := by
  cases hq : q.stores with
  | false =>
    rw [(outcome q db).of_not_stores hq]
    exact hdb
  | true =>
    cases q with
    | insertLogline d => exact (timely_execute _ _ _ (fun _ _ h => h.insertLogline d) db hdb).2
    | createPlan d => exact chronological_createPlan d hdb
    | revisePlan slug d => exact (timely_execute _ _ _ (fun _ _ h => h.insertPlan slug d) db hdb).2
    | insertSheet d => exact (timely_execute _ _ _ (fun _ _ h => h.insertSheet d) db hdb).2
    | _ => cases hq

end Database

/-! ### Runs -/

section Runs

variable {s : Service} {w : Conditions} (htime : Monotone w.time)
include htime

theorem Prog.run_chronological {α : Type} (p : Prog TableStore α) {t : Tables} {n : Nat}
    (h : t.Chronological (w.time n)) :
    let x := (p.run (Database.under w) (t, n)).2
    x.1.Chronological (w.time x.2) := by
  induction p generalizing t n with
  | done a => exact h
  | ask q k ih =>
    let db : Database := ⟨t, w.time n, w.outages n⟩
    have hquery : (Database.handle q db).2.tables.Chronological db.now :=
      Database.chronological_handle q h
    exact ih _ (hquery.mono (htime (Nat.le_succ n)))

/-- **The rows of a session come in the order of their stamps.** -/
theorem session_chronological (requests : List Http.Request) :
    (session s w requests).tables.Chronological (w.time (session s w requests).queries) := by
  refine session_induction (P := fun x => x.tables.Chronological (w.time x.queries)) ?_ ?_ requests
  · exact Tables.chronological_empty _
  · exact fun x r h => Prog.run_chronological htime (serve s r) h

end Runs

end Storyline
