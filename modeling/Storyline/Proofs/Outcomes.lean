import Storyline.Proofs.Growth
import Storyline.Proofs.Ranking
import Storyline.Store.Database

/-!
# Outcomes of queries

What a query can do to the tables, whatever the time and the outages. A failed one leaves all rows
as they were, one that reads tells of rows that are there, and one that stores adds what it was
given under the next numbers.

* `Query.Told`: what an answer tells of the tables; `Query.Told.extends`: further rows leave it
  true;
* `Query.Adds`: what a query adds to the tables, and when it can;
* `Query.Outcome`, with `Database.outcome`;
* `Conditions`, `Database.under`: the times and the outages of all queries of a run.
-/

namespace Storyline

theorem mem_of_find? {α : Type} {p : α → Prop} [DecidablePred p] {a : α} {l : List α}
    (h : l.find? (fun a => p a) = some a) : a ∈ l ∧ p a :=
  ⟨List.mem_of_find?_eq_some h, by simpa using List.find?_some h⟩

namespace Query

/-- The query is to store rows. -/
def stores : Query → Bool
  | insertLogline _ | createPlan _ | revisePlan _ _ | insertSheet _ => true
  | _ => false

/-- The row that a query has stored. -/
def shown : (q : Query) → q.Result → Json
  | insertLogline _, row => Logline.toJson row
  | createPlan _, row => StoryPlan.toJson row
  | revisePlan _ _, row => StoryPlan.toJson row
  | insertSheet _, row => BeatsSheet.toJson row
  | _, _ => .null

/-- A row that was looked up by itself is in the tables and is the one that was asked for. -/
def Told (t : Tables) : (q : Query) → q.Result → Prop
  | loglineBySlug user slug, found =>
    ∀ row : Logline, found = some row → row ∈ t.loglines.rows ∧ row.userId = user ∧ row.slug = slug
  | loglineById id, found => ∀ row : Logline, found = some row → row ∈ t.loglines.rows ∧ row.id = id
  | planById id, found => ∀ row : StoryPlan, found = some row → row ∈ t.plans.rows ∧ row.id = id
  | currentPlan slug, found =>
    ∀ row : StoryPlan, found = some row → row ∈ t.plans.rows ∧ row.slug = slug
  | sheetById id, found => ∀ row : BeatsSheet, found = some row → row ∈ t.sheets.rows ∧ row.id = id
  | _, _ => True

theorem Told.extends {t t' : Tables} {q : Query} {result : q.Result} (h : Told t q result)
    (ht : t.Extends t') : Told t' q result := by
  cases q with
  | loglineBySlug user slug => exact fun row hrow => (h row hrow).imp_left ht.loglines.mem
  | loglineById id => exact fun row hrow => (h row hrow).imp_left ht.loglines.mem
  | planById id => exact fun row hrow => (h row hrow).imp_left ht.plans.mem
  | currentPlan slug => exact fun row hrow => (h row hrow).imp_left ht.plans.mem
  | sheetById id => exact fun row hrow => (h row hrow).imp_left ht.sheets.mem
  | _ => trivial

/-- What a query adds to the tables, if what it refers to is there and what has to be new is. -/
inductive Adds (t : Tables) : Query → Addition → Prop
  | logline {d : NewLogline} (now : Timestamp)
      (hnew : ∀ row ∈ t.loglines.rows, ¬(row.userId = d.userId ∧ row.slug = d.slug)) :
      Adds t (.insertLogline d)
        (.logline ⟨t.loglines.nextId, d.userId, d.slug, d.name, d.content, now⟩)
  | plan {d : NewStoryPlan} (reserved now : Timestamp)
      (hnew : ∀ row ∈ t.reservations.rows, row.slug ≠ d.slug) :
      Adds t (.createPlan d) (.plan ⟨t.reservations.nextId, d.slug, reserved⟩
        ⟨t.plans.nextId, d.slug, d.name, d.description, d.beats, now⟩)
  | iteration {slug : String} {d : StoryPlanRevision} (now : Timestamp)
      (hslug : ∃ row ∈ t.reservations.rows, row.slug = slug) :
      Adds t (.revisePlan slug d)
        (.iteration ⟨t.plans.nextId, slug, d.name, d.description, d.beats, now⟩)
  | sheet {d : NewBeatsSheet} (now : Timestamp)
      (hlogline : ∃ row ∈ t.loglines.rows, row.id = d.loglineId)
      (hplan : ∃ row ∈ t.plans.rows, row.id = d.storyPlanId) :
      Adds t (.insertSheet d)
        (.sheet ⟨t.sheets.nextId, d.loglineId, d.storyPlanId, d.content, now⟩)

theorem Adds.next {t : Tables} {q : Query} {e : Addition} (h : Adds t q e) : e.Next t := by
  cases h with
  | logline now hnew => rfl
  | plan reserved now hnew => exact ⟨rfl, rfl⟩
  | iteration now hslug => rfl
  | sheet now hlogline hplan => rfl

theorem Adds.stores {t : Tables} {q : Query} {e : Addition} (h : Adds t q e) : q.stores = true := by
  cases h <;> rfl

/-- What a query can do to the tables `t`, by its answer. -/
inductive Outcome (t : Tables) (q : Query) : Except Failure q.Result → Tables → Prop
  | failed (f : Failure) {t' : Tables} (hrows : t.SameRows t') (hread : q.stores = false → t' = t) :
      Outcome t q (.error f) t'
  | told {result : q.Result} (hq : q.stores = false) (h : Told t q result) :
      Outcome t q (.ok result) t
  | added {result : q.Result} {e : Addition} (h : Adds t q e) (hshown : e.toJson = q.shown result) :
      Outcome t q (.ok result) (t.add e)

theorem Outcome.of_stores {t t' : Tables} {q : Query} {result : q.Result} (hq : q.stores = true)
    (h : Outcome t q (.ok result) t') :
    ∃ e, Adds t q e ∧ e.toJson = q.shown result ∧ t' = t.add e := by
  cases h with
  | told hq' h => cases hq.symm.trans hq'
  | added h hshown => exact ⟨_, h, hshown, rfl⟩

theorem Outcome.of_reads {t t' : Tables} {q : Query} {result : q.Result} (hq : q.stores = false)
    (h : Outcome t q (.ok result) t') : q.Told t result := by
  cases h with
  | told hq' h => exact h
  | added h hshown => cases hq.symm.trans h.stores

theorem Outcome.of_failed {t t' : Tables} {q : Query} {f : Failure}
    (h : Outcome t q (.error f) t') :
    t.SameRows t' := by
  cases h with
  | failed f hrows hread => exact hrows

theorem Outcome.of_not_stores {t t' : Tables} {q : Query} {answer : Except Failure q.Result}
    (hq : q.stores = false) (h : Outcome t q answer t') : t' = t := by
  cases h with
  | failed f hrows hread => exact hread hq
  | told hq' h => rfl
  | added h hshown => cases hq.symm.trans h.stores

theorem Outcome.extends {t t' : Tables} {q : Query} {answer : Except Failure q.Result}
    (h : Outcome t q answer t') : t.Extends t' := by
  cases h with
  | failed f hrows hread => exact hrows.extends
  | told hq h => rfl
  | added h hshown => exact h.next.extends

end Query

/-! ## Inserts -/

namespace Tables

open Query (Adds Outcome)

theorem outcome_insertLogline (now : Timestamp) (d : NewLogline) (t : Tables) :
    Outcome t (.insertLogline d) (insertLogline now d t).1 (insertLogline now d t).2 := by
  unfold insertLogline
  split
  · exact .failed _ { SameRows.refl t with loglines := Table.sameRows_useId _ } fun h => by cases h
  · next hnew =>
    refine .added (e := .logline _) (.logline now fun row hrow h => hnew ?_) rfl
    exact List.any_eq_true.mpr ⟨row, hrow, decide_eq_true h⟩

theorem outcome_insertPlan (now : Timestamp) (slug : String) (d : StoryPlanRevision) (t : Tables) :
    Outcome t (.revisePlan slug d) (insertPlan now slug d t).1 (insertPlan now slug d t).2 := by
  unfold insertPlan
  split
  · next hslug =>
    obtain ⟨row, hrow, h⟩ := List.any_eq_true.mp hslug
    exact .added (e := .iteration _) (.iteration now ⟨row, hrow, of_decide_eq_true h⟩) rfl
  · exact .failed _ { SameRows.refl t with plans := Table.sameRows_useId _ } fun h => by cases h

theorem outcome_insertSheet (now : Timestamp) (d : NewBeatsSheet) (t : Tables) :
    Outcome t (.insertSheet d) (insertSheet now d t).1 (insertSheet now d t).2 := by
  have hsame : t.SameRows { t with sheets := t.sheets.useId } :=
    { SameRows.refl t with sheets := Table.sameRows_useId _ }
  unfold insertSheet
  split
  · exact .failed _ hsame fun h => by cases h
  · next hlogline =>
    split
    · exact .failed _ hsame fun h => by cases h
    · next hplan =>
      rw [Bool.not_eq_true, Option.isNone_eq_false_iff, logline?, List.find?_isSome] at hlogline
      rw [Bool.not_eq_true, Option.isNone_eq_false_iff, plan?, List.find?_isSome] at hplan
      simp only [decide_eq_true_eq] at hlogline hplan
      exact .added (e := .sheet _) (.sheet now hlogline hplan) rfl

theorem reserveSlug_cases (now : Timestamp) (slug : String) (t : Tables) :
    (∃ f t', reserveSlug now slug t = (.error f, t') ∧ t.SameRows t') ∨
      reserveSlug now slug t = (.ok (),
        { t with reservations := t.reservations.append ⟨t.reservations.nextId, slug, now⟩ }) ∧
        ∀ row ∈ t.reservations.rows, row.slug ≠ slug := by
  unfold reserveSlug
  split
  · exact .inl ⟨_, _, rfl, { SameRows.refl t with reservations := Table.sameRows_useId _ }⟩
  · next hnew =>
    refine .inr ⟨rfl, fun row hrow h => hnew ?_⟩
    exact List.any_eq_true.mpr ⟨row, hrow, decide_eq_true h⟩

end Tables

/-- The time of each query, and the outages that its statements meet. -/
structure Conditions where
  time : Nat → Timestamp
  outages : Nat → List Outage

/-! ## Statements -/

namespace Database

open Query (Outcome)

variable {α β : Type} {db db' : Database} {effect : Timestamp → Tables → Except Failure α × Tables}
  {statement : Statement} {texts documentTexts : List String} {a : α} {b : β}

theorem execute_cases (statement : Statement) (texts documentTexts : List String)
    (effect : Timestamp → Tables → Except Failure α × Tables) (db : Database) :
    (∃ f db', db.execute statement texts documentTexts effect = (.error f, db') ∧
      db'.tables = db.tables) ∨
      ∃ outages, db.execute statement texts documentTexts effect =
        ((effect db.now db.tables).1, { db with
          tables := (effect db.now db.tables).2, outages }) := by
  unfold execute
  split
  · exact .inl ⟨_, _, rfl, rfl⟩
  · split
    · exact .inl ⟨_, _, rfl, rfl⟩
    · split
      · exact .inl ⟨_, _, rfl, rfl⟩
      · exact .inr ⟨_, rfl⟩

theorem outcome_execute {q : Query} (statement : Statement) (texts documentTexts : List String)
    {effect : Timestamp → Tables → Except Failure q.Result × Tables}
    (h : ∀ now t, Outcome t q (effect now t).1 (effect now t).2) (db : Database) :
    Outcome db.tables q (db.execute statement texts documentTexts effect).1
      (db.execute statement texts documentTexts effect).2.tables := by
  rcases execute_cases statement texts documentTexts effect db with ⟨f, db', he, ht⟩ | ⟨outages, he⟩
  · rw [he, ht]
    exact .failed f (.refl _) fun _ => rfl
  · rw [he]
    exact h db.now db.tables

theorem outcome_read {q : Query} (hq : q.stores = false) (statement : Statement)
    (texts : List String) {question : Tables → q.Result} (h : ∀ t, q.Told t (question t))
    (db : Database) :
    Outcome db.tables q (db.read statement texts question).1
      (db.read statement texts question).2.tables :=
  outcome_execute statement texts [] (fun _ t => .told hq (h t)) db

/-! ## The transaction -/

/-- A step that leaves all rows where they are. -/
def Grows (step : Database → Except Failure α × Database) : Prop :=
  ∀ db : Database, db.tables.Extends (step db).2.tables

theorem grows_execute (statement : Statement) (texts documentTexts : List String)
    (h : ∀ now (t : Tables), t.Extends (effect now t).2) :
    Grows fun db => db.execute statement texts documentTexts effect := by
  intro db
  rcases execute_cases statement texts documentTexts effect db with ⟨f, db', he, ht⟩ | ⟨outages, he⟩
  · simp only [he, ht]
    exact .refl _
  · simp only [he]
    exact h db.now db.tables

theorem grows_andThen {first : Database → Except Failure α × Database}
    {next : α → Database → Except Failure β × Database} (hf : Grows first)
    (hn : ∀ a, Grows (next a)) :
    Grows (andThen first next) := by
  intro db
  have hfirst := hf db
  unfold andThen
  split
  · next he => rwa [he] at hfirst
  · next a db₁ he =>
    rw [he] at hfirst
    exact hfirst.trans (hn a db₁)

theorem andThen_ok {first : Database → Except Failure α × Database}
    {next : α → Database → Except Failure β × Database} (h : andThen first next db = (.ok b, db')) :
    ∃ a db₁, first db = (.ok a, db₁) ∧ next a db₁ = (.ok b, db') := by
  unfold andThen at h
  split at h
  · cases h
  · next a db₁ he => exact ⟨a, db₁, he, h⟩

theorem execute_ok (h : db.execute statement texts documentTexts effect = (.ok a, db')) :
    effect db.now db.tables = (.ok a, db'.tables) := by
  rcases execute_cases statement texts documentTexts effect db with ⟨f, db₁, he, -⟩ | ⟨outages, he⟩
  · rw [he] at h
    cases h
  · rw [he] at h
    obtain ⟨ha, hdb⟩ := Prod.mk.inj h
    rw [← ha, ← hdb]

theorem grows_mark (statement : Statement) : Grows (mark statement) :=
  grows_execute statement [] [] fun _ _ => .refl _

theorem grows_reserveSlug (slug : String) : Grows (reserveSlug slug) := by
  refine grows_execute .reserveSlug [slug] [] fun now t => ?_
  rcases Tables.reserveSlug_cases now slug t with ⟨f, t', he, hrows⟩ | ⟨he, -⟩
  · rw [he]
    exact hrows.extends
  · rw [he]
    exact { Tables.Extends.refl t with reservations := Table.extends_append rfl }

theorem grows_insertPlan (slug : String) (d : StoryPlanRevision) : Grows (insertPlan slug d) :=
  grows_execute .insertPlan _ _ fun now t => (Tables.outcome_insertPlan now slug d t).extends

theorem mark_ok (h : mark statement db = (.ok (), db')) : db'.tables = db.tables :=
  (Prod.mk.inj (execute_ok h)).2.symm

theorem outcome_createPlan (d : NewStoryPlan) (db : Database) :
    Outcome db.tables (.createPlan d) (createPlan d db).1 (createPlan d db).2.tables := by
  unfold createPlan transact
  split
  · next f after he =>
    -- whatever the steps before the failure have stored is undone
    have hgrows : Grows (andThen (mark .openTransaction) fun _ =>
      andThen (reserveSlug d.slug) fun _ =>
        andThen (insertPlan d.slug d.revision) fun plan =>
          andThen (mark .commit) fun _ db => (.ok plan, db)) :=
      grows_andThen (grows_mark _) fun _ => grows_andThen (grows_reserveSlug _) fun _ =>
        grows_andThen (grows_insertPlan _ _) fun _ => grows_andThen (grows_mark _)
          fun _ _ => .refl _
    have := hgrows db
    rw [he] at this
    exact .failed f this.rolledBack fun h => by cases h
  · next plan after he =>
    obtain ⟨_, db₁, h₁, he⟩ := andThen_ok he
    obtain ⟨_, db₂, h₂, he⟩ := andThen_ok he
    obtain ⟨plan', db₃, h₃, he⟩ := andThen_ok he
    obtain ⟨_, db₄, h₄, he⟩ := andThen_ok he
    cases he
    have h₂ := execute_ok h₂
    have h₃ := execute_ok h₃
    rw [mark_ok h₁] at h₂
    rw [mark_ok h₄]
    rcases Tables.reserveSlug_cases db₁.now d.slug db.tables with ⟨f, t', he, -⟩ | ⟨he, hnew⟩
    · rw [he] at h₂
      cases h₂
    · rw [he] at h₂
      obtain ⟨-, ht₂⟩ := Prod.mk.inj h₂
      have hplan := Tables.outcome_insertPlan db₂.now d.slug d.revision db₂.tables
      rw [h₃, ← ht₂] at hplan
      obtain ⟨e, h, hshown, ht₃⟩ := hplan.of_stores rfl
      simp only at ht₃ ⊢
      rw [ht₃]
      cases h with
      | iteration now hslug => exact .added (e := .plan _ _) (.plan db₁.now now hnew) hshown

/-! ## All queries -/

/-- **What a query can do**, whatever the time and the outages. -/
theorem outcome (q : Query) (db : Database) :
    Outcome db.tables q (handle q db).1 (handle q db).2.tables := by
  cases q with
  | insertLogline d =>
    exact outcome_execute .insertLogline _ _ (fun now t => Tables.outcome_insertLogline now d t) db
  | createPlan d => exact outcome_createPlan d db
  | revisePlan slug d =>
    exact outcome_execute .insertPlan _ _ (fun now t => Tables.outcome_insertPlan now slug d t) db
  | insertSheet d =>
    exact outcome_execute .insertSheet _ _ (fun now t => Tables.outcome_insertSheet now d t) db
  | loglineBySlug user slug =>
    refine outcome_read (q := .loglineBySlug user slug) rfl .loglineBySlug _ ?_ db
    exact fun t row hrow => mem_of_find? hrow
  | loglineById id =>
    refine outcome_read (q := .loglineById id) rfl .loglineById _ ?_ db
    exact fun t row hrow => mem_of_find? hrow
  | planById id =>
    refine outcome_read (q := .planById id) rfl .planById _ ?_ db
    exact fun t row hrow => mem_of_find? hrow
  | currentPlan slug =>
    refine outcome_read (q := .currentPlan slug) rfl .plansBySlug _ ?_ db
    exact fun t row hrow => Tables.currentPlan?_eq_some hrow
  | sheetById id =>
    refine outcome_read (q := .sheetById id) rfl .sheetById _ ?_ db
    exact fun t row hrow => mem_of_find? hrow
  | _ =>
    refine outcome_read rfl _ _ ?_ db
    exact fun _ => trivial

/-- Queries one after the other, under conditions. The number counts them. -/
def under (w : Conditions) : Prog.Handler TableStore (Tables × Nat)
  | q, (t, n) =>
    let (answer, db) := handle q ⟨t, w.time n, w.outages n⟩
    (answer, db.tables, n + 1)

theorem outcome_under (w : Conditions) (q : Query) (s : Tables × Nat) :
    Outcome s.1 q (under w q s).1 (under w q s).2.1 :=
  outcome q ⟨s.1, w.time s.2, w.outages s.2⟩

end Database

/-! ## Calm conditions

Without outages a query does what its statements say: its answer depends on the tables and on the
time.

* `Conditions.Calm`, with `Database.execute_calm`, `Database.read_calm`;
* `Database.handle_insertLogline`, `Database.handle_createPlan_taken`,
  `Database.handle_createPlan_free`: queries that store;
* `Tables.answer`: the answer to a query that reads, with `Database.under_read`.
-/

/-- No statement meets an outage. -/
def Conditions.Calm (w : Conditions) : Prop := ∀ n, w.outages n = []

/-- The texts of a logline to be stored. -/
def NewLogline.texts (d : NewLogline) : List String := [d.slug, d.name, d.content]

/-- The texts of a story plan to be stored, those of its beats included. -/
def NewStoryPlan.texts (d : NewStoryPlan) : List String :=
  d.slug :: d.name :: d.description.toList ++ d.beats.flatMap BeatDefinition.texts

/-- The answer to a query that reads the tables. -/
def Tables.answer (t : Tables) (q : Query) : Except Failure q.Result :=
  (Database.handle q ⟨t, 0, []⟩).1

namespace Database

section Statements

variable {α : Type} {texts documentTexts : List String}

theorem execute_calm (htexts : texts.any holdsNul = false)
    (hdocuments : documentTexts.any holdsNul = false) (statement : Statement)
    (effect : Timestamp → Tables → Except Failure α × Tables) (t : Tables) (now : Timestamp) :
    execute statement texts documentTexts effect ⟨t, now, []⟩ =
      ((effect now t).1, ⟨(effect now t).2, now, []⟩) := by
  simp [execute, htexts, hdocuments, strike]

theorem read_calm (statement : Statement) (texts : List String) (question : Tables → α) (t : Tables)
    (now : Timestamp) : read statement texts question ⟨t, now, []⟩ =
      (if texts.any holdsNul then .error .unstorableText else .ok (question t), ⟨t, now, []⟩) := by
  by_cases htexts : texts.any holdsNul = true
  · simp [read, execute, htexts]
  · rw [read, execute_calm (Bool.eq_false_iff.mpr htexts) rfl, if_neg htexts]

end Statements

/-! ### Queries -/

theorem handle_read {q : Query} (hq : q.stores = false) (t : Tables) (now : Timestamp) :
    handle q ⟨t, now, []⟩ = (t.answer q, ⟨t, now, []⟩) := by
  cases q with
  | insertLogline d | createPlan d | revisePlan slug d | insertSheet d => cases hq
  | _ => simp only [handle, Tables.answer, read_calm]

theorem handle_insertLogline {d : NewLogline} (hd : d.texts.any holdsNul = false)
    (t : Tables) (now : Timestamp) : handle (.insertLogline d) ⟨t, now, []⟩ =
      ((Tables.insertLogline now d t).1, ⟨(Tables.insertLogline now d t).2, now, []⟩) := by
  exact execute_calm hd List.any_nil .insertLogline (fun now => Tables.insertLogline now d) t now

theorem mark_calm (statement : Statement) (t : Tables) (now : Timestamp) :
    mark statement ⟨t, now, []⟩ = (.ok (), ⟨t, now, []⟩) := by
  rw [mark, execute_calm rfl rfl]

section Plans

variable {d : NewStoryPlan} {t : Tables}

theorem reserveSlug_calm (hd : d.texts.any holdsNul = false) (t : Tables) (now : Timestamp) :
    reserveSlug d.slug ⟨t, now, []⟩ =
      ((Tables.reserveSlug now d.slug t).1, ⟨(Tables.reserveSlug now d.slug t).2, now, []⟩) := by
  have hslug : [d.slug].any holdsNul = false := by
    simp only [NewStoryPlan.texts, List.cons_append, List.any_cons, Bool.or_eq_false_iff] at hd
    simp [hd.1]
  exact execute_calm hslug rfl _ _ t now

theorem insertPlan_calm (hd : d.texts.any holdsNul = false) (t : Tables) (now : Timestamp) :
    insertPlan d.slug d.revision ⟨t, now, []⟩ = ((Tables.insertPlan now d.slug d.revision t).1,
      ⟨(Tables.insertPlan now d.slug d.revision t).2, now, []⟩) := by
  obtain ⟨hplain, hdocuments⟩ := Bool.or_eq_false_iff.mp (List.any_append.symm.trans hd)
  exact execute_calm hplain hdocuments _ _ t now

theorem handle_createPlan_taken (hd : d.texts.any holdsNul = false)
    (htaken : t.reservations.rows.any (·.slug = d.slug) = true) (now : Timestamp) :
    handle (.createPlan d) ⟨t, now, []⟩ = (.error (.duplicate "uq_story_plan_slugs_slug"),
      ⟨{ t with reservations := t.reservations.useId }, now, []⟩) := by
  simp only [handle, createPlan, transact, andThen, mark_calm, reserveSlug_calm hd,
    Tables.reserveSlug, if_pos htaken]
  rfl

theorem handle_createPlan_free (hd : d.texts.any holdsNul = false)
    (hfree : ¬t.reservations.rows.any (·.slug = d.slug) = true) (now : Timestamp) :
    let plan : StoryPlan := ⟨t.plans.nextId, d.slug, d.name, d.description, d.beats, now⟩
    handle (.createPlan d) ⟨t, now, []⟩ =
      (.ok plan, ⟨t.add (.plan ⟨t.reservations.nextId, d.slug, now⟩ plan), now, []⟩) := by
  intro plan
  have hreserved : (t.reservations.append ⟨t.reservations.nextId, d.slug, now⟩).rows.any
      (·.slug = d.slug) = true := by
    simp [Table.append]
  simp only [handle, createPlan, transact, andThen, mark_calm, reserveSlug_calm hd,
    Tables.reserveSlug, if_neg hfree, insertPlan_calm hd, Tables.insertPlan, if_pos hreserved]
  rfl

end Plans

theorem answer_latestLogline {base : String} (hbase : holdsNul base = false) (t : Tables)
    (user : Int) (order : VariantOrder) :
    t.answer (.latestLogline user base order) = .ok (t.latestLogline? user base order) := by
  rw [Tables.answer, handle, read_calm]
  simp [hbase]

theorem answer_latestPlan {base : String} (hbase : holdsNul base = false) (t : Tables)
    (order : VariantOrder) :
    t.answer (.latestPlan base order) = .ok (t.latestPlan? base order) := by
  rw [Tables.answer, handle, read_calm]
  simp [hbase]

variable {w : Conditions}

theorem under_calm (hw : w.Calm) (q : Query) (t : Tables) (n : Nat) : under w q (t, n) =
    ((handle q ⟨t, w.time n, []⟩).1, (handle q ⟨t, w.time n, []⟩).2.tables, n + 1) := by
  rw [under, hw n]

/-- **Without outages a query that reads** is answered from the tables, and leaves them as they
are. -/
theorem under_read (hw : w.Calm) {q : Query} (hq : q.stores = false) (t : Tables) (n : Nat) :
    under w q (t, n) = (t.answer q, t, n + 1) := by
  rw [under_calm hw, handle_read hq]

end Database

end Storyline
