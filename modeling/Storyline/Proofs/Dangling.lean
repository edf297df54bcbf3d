import Storyline.Proofs.Outcomes
import Storyline.Proofs.Traffic

/-!
# Queries and the rows that they refer to

* `Query.Grounded`: the rows that a query refers to are in the tables; what a request may store is
  grounded, by `Permits.grounded`;
* `Failure.IsDangling`: the failure of a reference that leads nowhere;
* `Database.not_dangling`: a grounded query does not fail in this way, with a lemma for each step of
  the transaction.
-/

namespace Storyline

open Http

/-- The rows that a query refers to are in the tables. -/
def Query.Grounded (t : Tables) : Query → Prop
  | revisePlan slug _ => ∃ row ∈ t.reservations.rows, row.slug = slug
  | insertSheet d =>
    (∃ row ∈ t.loglines.rows, row.id = d.loglineId) ∧ ∃ row ∈ t.plans.rows, row.id = d.storyPlanId
  | _ => True

theorem Permits.grounded {r : Request} {t : Tables} {q : Query} (h : Permits r t q)
    (ht : t.WellFormed) :
    q.Grounded t := by
  cases h with
  | logline => trivial
  | plan => trivial
  | iteration _ _ _ _ _ _ hplan =>
    obtain ⟨plan, hmem, hslug⟩ := hplan
    exact List.mem_map.mp ((ht.reserved _).mpr (hslug ▸ List.mem_map_of_mem hmem))
  | sheet _ _ _ _ hlogline hplan => exact ⟨⟨_, hlogline.1, rfl⟩, _, hplan.1, rfl⟩
  | renewal _ _ _ _ _ _ hlogline hplan => exact ⟨⟨_, hlogline.1, rfl⟩, _, hplan.1, rfl⟩

namespace Failure

/-- The failure is that of a reference to nowhere. -/
def IsDangling (f : Failure) : Prop := ∃ constraint, f = dangling constraint

theorem not_isDangling_of_code {code message : String} {constraint : Option String}
    (h : code ≠ danglingCode) :
    ¬(refused code constraint message).IsDangling := by
  rintro ⟨constraint', he⟩
  exact h (Failure.refused.inj he).1

theorem not_isDangling_outage (o : Outage) : ¬o.failure.IsDangling := by
  rintro ⟨constraint, he⟩
  have hmessage := (Failure.refused.inj he).2.2
  exact absurd hmessage (by decide)

end Failure

theorem Tables.insertSheet_grounded {t : Tables} {d : NewBeatsSheet}
    (h : (Query.insertSheet d).Grounded t) (now : Timestamp) : insertSheet now d t =
      let row : BeatsSheet := ⟨t.sheets.nextId, d.loglineId, d.storyPlanId, d.content, now⟩
      (.ok row, t.add (.sheet row)) := by
  obtain ⟨⟨logline, hlogline, hloglineId⟩, plan, hplan, hplanId⟩ := h
  have hfound : (t.logline? d.loglineId).isNone = false :=
    Option.isNone_eq_false_iff.mpr (List.find?_isSome.mpr ⟨logline, hlogline,
      decide_eq_true hloglineId⟩)
  have hfound' : (t.plan? d.storyPlanId).isNone = false :=
    Option.isNone_eq_false_iff.mpr (List.find?_isSome.mpr ⟨plan, hplan, decide_eq_true hplanId⟩)
  simp only [insertSheet, hfound, hfound', Bool.false_eq_true, if_false]
  rfl

theorem strike_failure {statement : Statement} {outages rest : List Outage} {f : Failure}
    (h : strike statement outages = (some f, rest)) : ∃ o : Outage, f = o.failure := by
  induction outages generalizing rest with
  | nil => cases h
  | cons o outages ih =>
    simp only [strike] at h
    split at h
    · split at h
      · exact ih (Prod.ext (Prod.mk.inj h).1 rfl)
      · split at h
        · exact ⟨o, (Option.some.inj (Prod.mk.inj h).1).symm⟩
        · exact ih (Prod.ext (Prod.mk.inj h).1 rfl)
    · exact ih (Prod.ext (Prod.mk.inj h).1 rfl)

namespace Database

variable {α β : Type} {db db' : Database}

theorem execute_dangling {statement : Statement} {texts documentTexts : List String}
    {effect : Timestamp → Tables → Except Failure α × Tables} {f : Failure} (hf : f.IsDangling)
    (h : (db.execute statement texts documentTexts effect).1 = .error f) :
    (effect db.now db.tables).1 = .error f := by
  unfold execute at h
  split at h
  · cases h
    exact absurd hf (Failure.not_isDangling_of_code (by decide))
  · split at h
    · cases h
      exact absurd hf (Failure.not_isDangling_of_code (by decide))
    · split at h
      · next f' outages hstrike =>
        obtain ⟨o, rfl⟩ := strike_failure hstrike
        cases h
        exact absurd hf (Failure.not_isDangling_outage o)
      · exact h

theorem andThen_error {first : Database → Except Failure α × Database}
    {next : α → Database → Except Failure β × Database} {f : Failure}
    (h : andThen first next db = (.error f, db')) :
    first db = (.error f, db') ∨ ∃ a db₁, first db = (.ok a, db₁) ∧
      next a db₁ = (.error f, db') := by
  unfold andThen at h
  split at h
  · next f' db₁ he =>
    cases h
    exact .inl he
  · next a db₁ he => exact .inr ⟨a, db₁, he, h⟩

theorem insertPlan_dangling {slug : String} {d : StoryPlanRevision} {f : Failure}
    (hf : f.IsDangling) (h : (insertPlan slug d db).1 = .error f) :
    ∀ row ∈ db.tables.reservations.rows, row.slug ≠ slug := by
  have heffect := execute_dangling hf h
  unfold Tables.insertPlan at heffect
  split at heffect
  · cases heffect
  · next hnone =>
    intro row hrow hslug
    exact hnone (List.any_eq_true.mpr ⟨row, hrow, decide_eq_true hslug⟩)

theorem mark_not_dangling {statement : Statement} {f : Failure} (hf : f.IsDangling) :
    mark statement db ≠ (.error f, db') :=
  fun he => nomatch execute_dangling hf (congrArg Prod.fst he)

theorem reserveSlug_not_dangling {slug : String} {f : Failure} (hf : f.IsDangling) :
    reserveSlug slug db ≠ (.error f, db') := by
  intro he
  have heffect := execute_dangling hf (congrArg Prod.fst he)
  unfold Tables.reserveSlug at heffect
  split at heffect
  · cases heffect
    exact absurd hf (Failure.not_isDangling_of_code (by decide))
  · cases heffect

theorem reserveSlug_ok {slug : String} (h : reserveSlug slug db = (.ok (), db')) :
    ∃ row ∈ db'.tables.reservations.rows, row.slug = slug := by
  have heffect := execute_ok h
  rcases Tables.reserveSlug_cases db.now slug db.tables with ⟨f, t, hf, -⟩ | ⟨hrow, -⟩
  · cases hf.symm.trans heffect
  · rw [← (Prod.mk.inj (hrow.symm.trans heffect)).2]
    exact ⟨_, Table.mem_append.mpr (.inr rfl), rfl⟩

theorem createPlan_not_dangling (d : NewStoryPlan) {f : Failure} (hf : f.IsDangling) :
    (createPlan d db).1 ≠ .error f := by
  intro h
  unfold createPlan transact at h
  split at h
  · next f' after he =>
    cases h
    rcases andThen_error he with he | ⟨_, db₁, -, he⟩
    · exact mark_not_dangling hf he
    rcases andThen_error he with he | ⟨_, db₂, hreserved, he⟩
    · exact reserveSlug_not_dangling hf he
    rcases andThen_error he with he | ⟨plan, db₃, -, he⟩
    · obtain ⟨row, hrow, hslug⟩ := reserveSlug_ok hreserved
      exact insertPlan_dangling hf (congrArg Prod.fst he) row hrow hslug
    rcases andThen_error he with he | ⟨_, db₄, -, he⟩
    · exact mark_not_dangling hf he
    · cases he
  · cases h

/-- **A query whose rows are there** does not fail on a reference, whatever the time and the
outages. -/
theorem not_dangling {q : Query} (h : q.Grounded db.tables) {f : Failure} (hf : f.IsDangling) :
    (handle q db).1 ≠ .error f := by
  intro he
  cases q with
  | insertLogline d =>
    have heffect := execute_dangling hf he
    unfold Tables.insertLogline at heffect
    split at heffect
    · cases heffect
      exact absurd hf (Failure.not_isDangling_of_code (by decide))
    · cases heffect
  | createPlan d => exact createPlan_not_dangling d hf he
  | revisePlan slug d =>
    obtain ⟨row, hrow, hslug⟩ := h
    exact insertPlan_dangling hf he row hrow hslug
  | insertSheet d =>
    have heffect := execute_dangling hf he
    rw [Tables.insertSheet_grounded h] at heffect
    cases heffect
  | _ => exact nomatch execute_dangling hf he

end Database

end Storyline

/-! ## What the tables say to a row

Without outages, the answer to a query that stores depends on the texts of the row, on the slugs
that are taken, and on the rows that it refers to.

* `Query.rowTexts`, `Query.texts`: the texts of the row to be stored, without its slug and with it;
* `Failure.IsUnstorable`: the refusal of a text;
* `Database.handle_unstorable`, `Database.handle_storable`: the answer to a row that holds U+0000,
  and to one that does not.
-/

namespace Storyline

/-- The texts of an iteration to be stored, those of its beats included. -/
def StoryPlanRevision.texts (d : StoryPlanRevision) : List String :=
  d.name :: d.description.toList ++ d.beats.flatMap BeatDefinition.texts

/-- The texts of the row that a query is to store, except its slug. -/
def Query.rowTexts : Query → List String
  | insertLogline d => [d.name, d.content]
  | createPlan d => d.revision.texts
  | revisePlan _ d => d.texts
  | insertSheet d => d.content.flatMap Beat.texts
  | _ => []

/-- The slug under which a query is to store a row. -/
def Query.slug? : Query → Option String
  | insertLogline d => some d.slug
  | createPlan d => some d.slug
  | revisePlan slug _ => some slug
  | _ => none

/-- The texts of the row that a query is to store. -/
def Query.texts (q : Query) : List String := q.slug?.toList ++ q.rowTexts

/-- The failure is the refusal of a text, inside a document or not. -/
def Failure.IsUnstorable (f : Failure) : Prop := f = .unstorableText ∨ f = .unstorableDocument

namespace Database

variable {α : Type} {t : Tables} {now : Timestamp}

/-! ### Texts that cannot be stored -/

theorem execute_unstorable {texts documentTexts : List String}
    (h : (texts ++ documentTexts).any holdsNul = true) (statement : Statement)
    (effect : Timestamp → Tables → Except Failure α × Tables) (db : Database) :
    ∃ f, execute statement texts documentTexts effect db = (.error f, db) ∧ f.IsUnstorable := by
  rw [List.any_append, Bool.or_eq_true] at h
  by_cases htexts : texts.any holdsNul = true
  · exact ⟨_, by rw [execute, if_pos htexts], .inl rfl⟩
  · exact ⟨_, by rw [execute, if_neg htexts, if_pos (h.resolve_left htexts)], .inr rfl⟩

/-- A taken slug is found out before the other texts are looked at. -/
theorem createPlan_unstorable {d : NewStoryPlan} (h : d.texts.any holdsNul = true) :
    (∃ f, (createPlan d ⟨t, now, []⟩).1 = .error f ∧ f.IsUnstorable) ∨
      t.reservations.rows.any (·.slug = d.slug) = true ∧
        (createPlan d ⟨t, now, []⟩).1 = .error (.duplicate "uq_story_plan_slugs_slug") := by
  simp only [createPlan, transact, andThen, mark_calm]
  cases hslug : [d.slug].any holdsNul with
  | true =>
    have hplain : ([d.slug] ++ []).any holdsNul = true := hslug
    obtain ⟨f, hf, hunstorable⟩ :=
      execute_unstorable hplain .reserveSlug (fun now => Tables.reserveSlug now d.slug)
      ⟨t, now, []⟩
    refine .inl ⟨f, ?_, hunstorable⟩
    rw [reserveSlug, hf]
  | false =>
    have hreserve : reserveSlug d.slug ⟨t, now, []⟩ =
        ((Tables.reserveSlug now d.slug t).1, ⟨(Tables.reserveSlug now d.slug t).2, now, []⟩) :=
      execute_calm hslug rfl _ _ t now
    by_cases htaken : t.reservations.rows.any (·.slug = d.slug) = true
    · simp only [hreserve, Tables.reserveSlug, if_pos htaken]
      exact .inr ⟨htaken, trivial⟩
    · obtain ⟨f, hf, hunstorable⟩ := execute_unstorable h .insertPlan
        (fun now => Tables.insertPlan now d.slug d.revision)
        ⟨{ t with reservations := t.reservations.append ⟨t.reservations.nextId, d.slug, now⟩ },
          now, []⟩
      change insertPlan d.slug d.revision _ = _ at hf
      simp only [hreserve, Tables.reserveSlug, if_neg htaken, hf]
      exact .inl ⟨f, rfl, hunstorable⟩

/-- **A row with a text that holds U+0000** is not stored. It is refused for this text, if it is not
refused for a taken slug before. -/
theorem handle_unstorable {q : Query} (h : q.texts.any holdsNul = true) :
    (∃ f, (handle q ⟨t, now, []⟩).1 = .error f ∧ f.IsUnstorable) ∨
      ∃ d, q = .createPlan d ∧ t.reservations.rows.any (·.slug = d.slug) = true ∧
        (handle q ⟨t, now, []⟩).1 = .error (.duplicate "uq_story_plan_slugs_slug") := by
  have hrefused (texts documentTexts : List String) (htexts : texts ++ documentTexts = q.texts)
      (statement : Statement) (effect : Timestamp → Tables → Except Failure q.Result × Tables) :
      ∃ f, (execute statement texts documentTexts effect ⟨t, now, []⟩).1 = .error f ∧
        f.IsUnstorable := by
    obtain ⟨f, hf, hunstorable⟩ := execute_unstorable (htexts ▸ h) statement effect ⟨t, now, []⟩
    exact ⟨f, by rw [hf], hunstorable⟩
  cases q with
  | insertLogline d => exact .inl (hrefused [d.slug, d.name, d.content] [] rfl _ _)
  | createPlan d =>
    exact (createPlan_unstorable h).imp_right fun ⟨htaken, he⟩ => ⟨d, rfl, htaken, he⟩
  | revisePlan slug d => exact .inl (hrefused (slug :: d.name :: d.description.toList) _ rfl _ _)
  | insertSheet d => exact .inl (hrefused [] _ rfl _ _)
  | _ => cases h

/-! ### Rows that can be stored -/

/-- **A row without U+0000** is stored, unless its slug is taken or it refers to nowhere. -/
theorem handle_storable {q : Query} (hq : q.stores = true) (h : q.texts.any holdsNul = false) :
    (∃ result, (handle q ⟨t, now, []⟩).1 = .ok result) ∨
      (∃ constraint, (handle q ⟨t, now, []⟩).1 = .error (.duplicate constraint) ∧
        "uq_".toList <+: constraint.toList) ∨
      ∃ constraint, (handle q ⟨t, now, []⟩).1 = .error (.dangling constraint) := by
  cases q with
  | insertLogline d =>
    rw [handle_insertLogline h, Tables.insertLogline]
    split
    · exact .inr (.inl ⟨_, rfl, by decide⟩)
    · exact .inl ⟨_, rfl⟩
  | createPlan d =>
    by_cases htaken : t.reservations.rows.any (·.slug = d.slug) = true
    · exact .inr (.inl ⟨_, congrArg Prod.fst (handle_createPlan_taken h htaken now), by decide⟩)
    · exact .inl ⟨_, congrArg Prod.fst (handle_createPlan_free h htaken now)⟩
  | revisePlan slug d =>
    have hsplit : ((slug :: d.name :: d.description.toList) ++
        d.beats.flatMap BeatDefinition.texts).any holdsNul = false := h
    obtain ⟨hplain, hdocuments⟩ := Bool.or_eq_false_iff.mp (List.any_append.symm.trans hsplit)
    rw [handle, insertPlan, execute_calm hplain hdocuments, Tables.insertPlan]
    split
    · exact .inl ⟨_, rfl⟩
    · exact .inr (.inr ⟨_, rfl⟩)
  | insertSheet d =>
    have hcontent : (d.content.flatMap Beat.texts).any holdsNul = false := h
    rw [handle, execute_calm List.any_nil hcontent, Tables.insertSheet]
    split
    · exact .inr (.inr ⟨_, rfl⟩)
    · split
      · exact .inr (.inr ⟨_, rfl⟩)
      · exact .inl ⟨_, rfl⟩
  | _ => cases hq

end Database

end Storyline
