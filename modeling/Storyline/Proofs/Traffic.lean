import Mathlib.Data.Fin.VecNotation
import Mathlib.Data.List.Induction
import Storyline.Proofs.Growth
import Storyline.Proofs.Permits

/-!
# Requests side by side

Any number of requests, whose queries come in any order. They start from empty tables, and any
statement may fail.

* `traffic`: requests that have not begun;
* `traffic_step`: one turn;
* `traffic_induction`: what holds of empty tables and is kept by all that requests may store holds
  at all times.
-/

namespace Storyline

open Http

variable {ι : Type} [DecidableEq ι] {s : Service} {requests : ι → Request} {w : Conditions}

/-- Requests that have not begun, before empty tables. -/
def traffic (s : Service) (requests : ι → Request) : Pool TableStore ι Response (Tables × Nat) :=
  ⟨fun i => serve s (requests i), ({}, 0)⟩

/-- The tables after the turns of a schedule. -/
def tablesAfter (s : Service) (requests : ι → Request) (w : Conditions) (schedule : List ι) :
    Tables :=
  ((traffic s requests).run (Database.under w) schedule).store.1

/-- The tables `t'` are the tables `t` with what a request may store. -/
def Permitted (r : Request) (t t' : Tables) : Prop :=
  ∃ q e, Permits r t q ∧ q.Adds t e ∧ t' = t.add e

theorem Permitted.extends {r : Request} {t t' : Tables} (h : Permitted r t t') : t.Extends t' := by
  obtain ⟨q, e, -, hadds, rfl⟩ := h
  exact hadds.next.extends

theorem lawful_traffic (schedule : List ι) : Pool.LawfulAt (fun i q t => Permits (requests i) t q)
    (fun i response _ => (requests i).writes → ¬response.succeeds)
    (fun i json response => (requests i).writes ∧ response.succeeds ∧ response.shows json)
    ((traffic s requests).run (Database.under w) schedule) :=
  Pool.run_induction (fun _ i h => (h.step w i).1)
    (fun i => .inr ((lawful_serve s (requests i)).at {})) schedule

/-- **One turn** leaves the rows as they are, or adds what the request whose turn it is may
store. -/
theorem traffic_step (before : List ι) (i : ι) :
    let t := tablesAfter s requests w before
    let t' := tablesAfter s requests w (before ++ [i])
    t.SameRows t' ∨ Permitted (requests i) t t' := by
  simp only [tablesAfter, Pool.run_concat]
  rcases ((lawful_traffic before).step w i).2 with hrows | ⟨a, q, e, hp, hadds, ht, -⟩
  · exact .inl hrows
  · exact .inr ⟨q, e, hp, hadds, ht⟩

/-- **What holds of empty tables and is kept by every turn holds at all times.** -/
theorem traffic_induction {P : Tables → Prop} (h₀ : P {})
    (hrows : ∀ t t', P t → t.SameRows t' → P t') (hadd : ∀ r t t', P t → Permitted r t t' → P t')
    (schedule : List ι) :
    P (tablesAfter s requests w schedule) := by
  induction schedule using List.reverseRecOn with
  | nil => exact h₀
  | append_singleton before i ih =>
    rcases traffic_step before i with h | h
    · exact hrows _ _ ih h
    · exact hadd _ _ _ ih h

theorem traffic_extends (before after : List ι) :
    (tablesAfter s requests w before).Extends (tablesAfter s requests w (before ++ after)) := by
  induction after using List.reverseRecOn with
  | nil => rw [List.append_nil]
  | append_singleton after i ih =>
    rw [← List.append_assoc]
    refine ih.trans ?_
    rcases traffic_step (before ++ after) i with h | h
    · exact h.extends
    · exact h.extends

end Storyline

/-! ## Well-formed tables

* `Logline.Valid`, `StoryPlan.Valid`: what holds of a row by itself;
* `Tables.WellFormed`, with one lemma for each kind of addition;
* `traffic_wellFormed`: the tables are well-formed at all times.
-/

namespace Storyline

open Http

/-! ### Rows -/

/-- A logline that keeps the rules. -/
structure Logline.Valid (row : Logline) : Prop where
  slug : Slug.check row.slug = .ok ()
  owner : 0 < row.userId
  name : 1 ≤ row.name.length ∧ row.name.length ≤ 200
  content : 1 ≤ row.content.length ∧ row.content.length ≤ 2000

/-- A story plan that keeps the rules. -/
structure StoryPlan.Valid (row : StoryPlan) : Prop where
  slug : Slug.check row.slug = .ok ()
  name : 1 ≤ row.name.length ∧ row.name.length ≤ 200
  description : ∀ text, row.description = some text → text.length ≤ 2000
  beats : checkDefinitions row.beats = .ok ()

theorem Measured.fits_iff {m : Measured} :
    m.fits = true ↔ m.least ≤ m.text.length ∧ m.text.length ≤ m.most := by
  simp [fits, String.length_toList]

theorem Renamed.check {κ : Type} [Candidate κ] {wanted d : κ} (h : Renamed wanted d)
    (hlaw : ∀ (d : κ) a, Candidate.slug (Candidate.withSlug d a) = a)
    (hwanted : Slug.check (Candidate.slug wanted) = .ok ()) :
    Slug.check (Candidate.slug d) = .ok () := by
  rcases h with rfl | ⟨n, hn, rfl⟩
  · exact hwanted
  · rwa [hlaw]

section Permitted

variable {r : Request} {t : Tables}

theorem Permits.logline_valid {d : NewLogline} (h : Permits r t (.insertLogline d)) (id : Int)
    (now : Timestamp) : Logline.Valid ⟨id, d.userId, d.slug, d.name, d.content, now⟩ := by
  cases h with
  | logline hmethod hplace huser hinput haccept hd =>
    obtain ⟨hlengths, slug, hslug, rfl⟩ := Loglines.accept_ok haccept
    have hcheck := hd.check (fun _ _ => rfl) (chosenSlug_ok hslug).2
    have hcontent := Measured.fits_iff.mp (checkLengths_ok hlengths List.mem_cons_self)
    have hname :=
      Measured.fits_iff.mp (checkLengths_ok hlengths (List.mem_cons_of_mem _ List.mem_cons_self))
    rcases hd with rfl | ⟨n, -, rfl⟩
    · exact ⟨hcheck, callerOf_ok huser, hname, hcontent⟩
    · exact ⟨hcheck, callerOf_ok huser, hname, hcontent⟩

theorem StoryPlans.checkRevision_valid {d : StoryPlanRevision} (h : checkRevision d = .ok ())
    {slug : String} (hslug : Slug.check slug = .ok ()) (id : Int) (now : Timestamp) :
    StoryPlan.Valid ⟨id, slug, d.name, d.description, d.beats, now⟩ := by
  obtain ⟨hlengths, hbeats⟩ := checkRevision_ok h
  have hname :=
    Measured.fits_iff.mp (checkLengths_ok hlengths (List.mem_append_right _ List.mem_cons_self))
  refine ⟨hslug, hname, fun text htext => ?_, hbeats⟩
  have hmem : (⟨"description", text, 0, 2000⟩ : Measured) ∈ Measured.description d.description := by
    rw [show d.description = some text from htext]
    exact List.mem_cons_self
  exact (Measured.fits_iff.mp (checkLengths_ok hlengths (List.mem_append_left _ hmem))).2

theorem Permits.plan_valid {d : NewStoryPlan} (h : Permits r t (.createPlan d)) (id : Int)
    (now : Timestamp) :
    StoryPlan.Valid ⟨id, d.slug, d.name, d.description, d.beats, now⟩ := by
  cases h with
  | plan hmethod hplace huser hinput haccept hd =>
    obtain ⟨hrevision, slug, hslug, rfl⟩ := StoryPlans.accept_ok haccept
    have hcheck := hd.check (fun _ _ => rfl) (chosenSlug_ok hslug).2
    rcases hd with rfl | ⟨n, -, rfl⟩
    · exact StoryPlans.checkRevision_valid hrevision hcheck id now
    · exact StoryPlans.checkRevision_valid hrevision hcheck id now

theorem Permits.iteration_valid {slug : String} {d : StoryPlanRevision}
    (h : Permits r t (.revisePlan slug d)) (hslug : Slug.check slug = .ok ()) (id : Int)
    (now : Timestamp) :
    StoryPlan.Valid ⟨id, slug, d.name, d.description, d.beats, now⟩ := by
  cases h with
  | iteration hmethod hplace huser hsegment hinput haccept =>
    exact StoryPlans.checkRevision_valid haccept hslug id now

end Permitted

/-! ### Tables -/

namespace Tables

/-- The tables keep all rules: those for single rows, and those for the rows together. -/
structure WellFormed (t : Tables) : Prop where
  loglines : ∀ row ∈ t.loglines.rows, row.Valid
  plans : ∀ row ∈ t.plans.rows, row.Valid
  loglineSlugs : (t.loglines.rows.map fun row => (row.userId, row.slug)).Nodup
  planSlugs : (t.reservations.rows.map (·.slug)).Nodup
  reserved : ∀ slug, slug ∈ t.reservations.rows.map (·.slug) ↔ slug ∈ t.plans.rows.map (·.slug)
  loglineIds : t.loglines.Numbered Logline.id
  reservationIds : t.reservations.Numbered SlugReservation.id
  planIds : t.plans.Numbered StoryPlan.id
  sheetIds : t.sheets.Numbered BeatsSheet.id

variable {t t' : Tables}

theorem wellFormed_empty : WellFormed {} where
  loglines := by simp
  plans := by simp
  loglineSlugs := List.nodup_nil
  planSlugs := List.nodup_nil
  reserved := by simp
  loglineIds := ⟨.nil, by simp⟩
  reservationIds := ⟨.nil, by simp⟩
  planIds := ⟨.nil, by simp⟩
  sheetIds := ⟨.nil, by simp⟩

theorem WellFormed.of_sameRows (h : t.WellFormed) (ht : t.SameRows t') : t'.WellFormed where
  loglines := ht.loglines.rows ▸ h.loglines
  plans := ht.plans.rows ▸ h.plans
  loglineSlugs := ht.loglines.rows ▸ h.loglineSlugs
  planSlugs := ht.reservations.rows ▸ h.planSlugs
  reserved := ht.reservations.rows ▸ ht.plans.rows ▸ h.reserved
  loglineIds := h.loglineIds.of_sameRows ht.loglines
  reservationIds := h.reservationIds.of_sameRows ht.reservations
  planIds := h.planIds.of_sameRows ht.plans
  sheetIds := h.sheetIds.of_sameRows ht.sheets

theorem WellFormed.logline (h : t.WellFormed) {row : Logline} (hid : row.id = t.loglines.nextId)
    (hrow : row.Valid)
    (hnew : ∀ old ∈ t.loglines.rows, ¬(old.userId = row.userId ∧ old.slug = row.slug)) :
    (t.add (.logline row)).WellFormed := by
  refine { h with loglines := Table.forall_append h.loglines hrow, loglineSlugs := ?_,
                  loglineIds := h.loglineIds.append hid }
  exact Table.nodup_append h.loglineSlugs fun old hold heq => hnew old hold (Prod.mk.inj heq)

theorem WellFormed.plan (h : t.WellFormed) {reservation : SlugReservation} {row : StoryPlan}
    (hids : reservation.id = t.reservations.nextId ∧ row.id = t.plans.nextId) (hrow : row.Valid)
    (hslug : reservation.slug = row.slug)
    (hnew : ∀ old ∈ t.reservations.rows, old.slug ≠ row.slug) :
    (t.add (.plan reservation row)).WellFormed := by
  refine { h with plans := Table.forall_append h.plans hrow, planSlugs := ?_, reserved :=
    fun slug => ?_,
                  reservationIds := h.reservationIds.append hids.1, planIds :=
                    h.planIds.append hids.2 }
  · exact Table.nodup_append h.planSlugs fun old hold heq => hnew old hold (heq.trans hslug)
  · simp only [add, Table.append, List.map_append, List.mem_append, h.reserved slug, List.map_cons,
      List.map_nil, hslug]

theorem WellFormed.iteration (h : t.WellFormed) {row : StoryPlan} (hid : row.id = t.plans.nextId)
    (hrow : row.Valid) (hslug : ∃ old ∈ t.reservations.rows, old.slug = row.slug) :
    (t.add (.iteration row)).WellFormed := by
  refine { h with plans := Table.forall_append h.plans hrow, reserved := fun slug => ?_,
                  planIds := h.planIds.append hid }
  have hold : row.slug ∈ t.plans.rows.map (·.slug) := (h.reserved _).mp (List.mem_map.mpr hslug)
  simp only [add, Table.append, List.map_append, List.mem_append, h.reserved slug, List.map_cons,
    List.map_nil, List.mem_singleton]
  constructor
  · exact .inl
  · rintro (hmem | rfl)
    · exact hmem
    · exact hold

theorem WellFormed.sheet (h : t.WellFormed) {row : BeatsSheet} (hid : row.id = t.sheets.nextId) :
    (t.add (.sheet row)).WellFormed :=
  { h with sheetIds := h.sheetIds.append hid }

theorem WellFormed.reserved_check (h : t.WellFormed) {row : SlugReservation}
    (hrow : row ∈ t.reservations.rows) : Slug.check row.slug = .ok () := by
  obtain ⟨plan, hplan, hslug⟩ :=
    List.mem_map.mp ((h.reserved row.slug).mp (List.mem_map_of_mem hrow))
  exact hslug ▸ (h.plans plan hplan).slug

/-- **What a request may store leaves the tables well-formed.** -/
theorem WellFormed.permitted (h : t.WellFormed) {r : Request} (ht : Permitted r t t') :
    t'.WellFormed := by
  obtain ⟨q, e, hp, hadds, rfl⟩ := ht
  cases hadds with
  | logline now hnew => exact h.logline rfl (hp.logline_valid _ now) hnew
  | plan reserved now hnew => exact h.plan ⟨rfl, rfl⟩ (hp.plan_valid _ now) rfl hnew
  | iteration now hslug =>
    obtain ⟨old, hold, hslug⟩ := hslug
    have hcheck := h.reserved_check hold
    exact h.iteration rfl (hp.iteration_valid (hslug ▸ hcheck) _ now) ⟨old, hold, hslug⟩
  | sheet now => exact h.sheet rfl

end Tables

section Traffic

variable {ι : Type} [DecidableEq ι] (s : Service) (requests : ι → Request) (w : Conditions)

theorem wellFormed_tablesAfter (schedule : List ι) :
    (tablesAfter s requests w schedule).WellFormed :=
  traffic_induction Tables.wellFormed_empty (fun _ _ h => h.of_sameRows) (fun _ _ _ h =>
    h.permitted) schedule

/-- **The tables are well-formed at all times**, and what comes later only adds rows, under numbers
that had not been used. -/
theorem traffic_wellFormed (before after : List ι) :
    (tablesAfter s requests w before).WellFormed ∧
      (tablesAfter s requests w before).Extends (tablesAfter s requests w (before ++ after)) :=
  ⟨wellFormed_tablesAfter s requests w before, traffic_extends before after⟩

end Traffic

/-! ## Sheets and their plans

A sheet is checked against an iteration that was read before, while other requests store further
iterations. As rows stay what they are, it follows the iteration that it points at for ever.

* `Permitted.new_sheet`, `Tables.SheetsFollow`: what one turn adds, and what it keeps;
* `traffic_sheets`: every sheet follows its iteration, and was stored for the owner of its logline.
-/

theorem Permitted.new_sheet {r : Request} {t t' : Tables} (h : Permitted r t t')
    {sheet : BeatsSheet} (hnew : sheet ∈ t'.sheets.rows) (hold : sheet ∉ t.sheets.rows) :
    ∃ logline ∈ t.loglines.rows, ∃ plan ∈ t.plans.rows, logline.id = sheet.loglineId ∧
      plan.id = sheet.storyPlanId ∧ sheet.content.map Beat.key = plan.beats.map BeatDefinition.key ∧
      callerOf r = .ok logline.userId := by
  obtain ⟨q, e, hp, hadds, rfl⟩ := h
  cases hadds with
  | sheet now =>
    rw [(Table.mem_append.mp hnew).resolve_left hold]
    cases hp with
    | @sheet user _ logline plan hmethod hplace huser hinput hlogline hplan hcontent =>
      exact ⟨logline, hlogline.1, plan, hplan.1, rfl, rfl, checkContent_ok hcontent,
        hlogline.2.1 ▸ huser⟩
    | @renewal user _ _ _ _ logline plan hmethod hplace huser hid hinput hprevious hlogline
        hplan hcontent =>
      exact ⟨logline, hlogline.1, plan, hplan.1, rfl, rfl, checkContent_ok hcontent,
        hlogline.2.2 ▸ huser⟩
  | _ => exact absurd hnew hold

/-- Every sheet follows an iteration in the tables. -/
def Tables.SheetsFollow (t : Tables) : Prop :=
  ∀ sheet ∈ t.sheets.rows, ∃ plan ∈ t.plans.rows, plan.id = sheet.storyPlanId ∧
    sheet.content.map Beat.key = plan.beats.map BeatDefinition.key

theorem Tables.SheetsFollow.of_sameRows {t t' : Tables} (h : t.SheetsFollow) (ht : t.SameRows t') :
    t'.SheetsFollow := by
  unfold SheetsFollow
  rwa [ht.sheets.rows, ht.plans.rows]

/-- **What a request may store** leaves every sheet with an iteration that it follows. -/
theorem Tables.SheetsFollow.permitted {t t' : Tables} (h : t.SheetsFollow) {r : Request}
    (ht : Permitted r t t') : t'.SheetsFollow := by
  intro sheet hsheet
  by_cases hold : sheet ∈ t.sheets.rows
  · obtain ⟨plan, hplan, hfollows⟩ := h sheet hold
    exact ⟨plan, ht.extends.plans.mem hplan, hfollows⟩
  · obtain ⟨-, -, plan, hplan, -, hid, hkeys, -⟩ := ht.new_sheet hsheet hold
    exact ⟨plan, ht.extends.plans.mem hplan, hid, hkeys⟩

section Traffic

variable {ι : Type} [DecidableEq ι] {s : Service} {requests : ι → Request} {w : Conditions}

/-- Every sheet has been added by a turn, and what held of it then still holds. -/
theorem traffic_sheet_added (schedule : List ι) :
    ∀ sheet ∈ (tablesAfter s requests w schedule).sheets.rows,
      ∃ logline ∈ (tablesAfter s requests w schedule).loglines.rows,
      ∃ plan ∈ (tablesAfter s requests w schedule).plans.rows,
        logline.id = sheet.loglineId ∧ plan.id = sheet.storyPlanId ∧
        sheet.content.map Beat.key = plan.beats.map BeatDefinition.key ∧
        ∃ before i after, schedule = before ++ i :: after ∧
          sheet ∉ (tablesAfter s requests w before).sheets.rows ∧
          sheet ∈ (tablesAfter s requests w (before ++ [i])).sheets.rows ∧
          callerOf (requests i) = .ok logline.userId := by
  -- from the end of the schedule: a sheet is there already, or the last turn has added it
  induction schedule using List.reverseRecOn with
  | nil => exact fun sheet h => (List.not_mem_nil h).elim
  | append_singleton past i ih =>
    intro sheet hsheet
    have hgrow : (tablesAfter s requests w past).Extends (tablesAfter s requests w (past ++ [i])) :=
      traffic_extends past [i]
    by_cases hold : sheet ∈ (tablesAfter s requests w past).sheets.rows
    · obtain ⟨logline, hlogline, plan, hplan, hl, hp, hkeys, before, j, after, rfl, hturn⟩ :=
        ih sheet hold
      exact ⟨logline, hgrow.loglines.mem hlogline, plan, hgrow.plans.mem hplan, hl, hp, hkeys,
        before, j, after ++ [i], by simp, hturn⟩
    · rcases traffic_step past i with h | h
      · exact absurd (h.sheets.rows ▸ hsheet) hold
      · obtain ⟨logline, hlogline, plan, hplan, hl, hp, hkeys, hcaller⟩ := h.new_sheet hsheet hold
        exact ⟨logline, hgrow.loglines.mem hlogline, plan, hgrow.plans.mem hplan, hl, hp, hkeys,
          past, i, [], rfl, hold, hsheet, hcaller⟩

/-- **Every sheet follows the iteration that it points at.** Its logline and its iteration are in
the tables; its keys are those of the iteration, all different, and there is one at least; and it
was added by a request of the owner of its logline. -/
theorem traffic_sheets (schedule : List ι) {sheet : BeatsSheet}
    (hsheet : sheet ∈ (tablesAfter s requests w schedule).sheets.rows) :
    let t := tablesAfter s requests w schedule
    ∃ logline plan, t.logline? sheet.loglineId = some logline ∧
      t.plan? sheet.storyPlanId = some plan ∧
      sheet.content.map Beat.key = plan.beats.map BeatDefinition.key ∧
      (sheet.content.map Beat.key).Nodup ∧ sheet.content ≠ [] ∧
      ∃ before i after, schedule = before ++ i :: after ∧
        sheet ∉ (tablesAfter s requests w before).sheets.rows ∧
        sheet ∈ (tablesAfter s requests w (before ++ [i])).sheets.rows ∧
        callerOf (requests i) = .ok logline.userId := by
  intro t
  have hwf : t.WellFormed := wellFormed_tablesAfter s requests w schedule
  obtain ⟨logline, hlogline, plan, hplan, hl, hp, hkeys, hadded⟩ :=
    traffic_sheet_added schedule sheet hsheet
  obtain ⟨hne, hnodup⟩ := checkDefinitions_ok (hwf.plans plan hplan).beats
  have hlogline : t.logline? sheet.loglineId = some logline := hl ▸ hwf.loglineIds.find? hlogline
  have hplan : t.plan? sheet.storyPlanId = some plan := hp ▸ hwf.planIds.find? hplan
  refine ⟨logline, plan, hlogline, hplan, hkeys, ?_, ?_, hadded⟩
  · rwa [hkeys]
  · intro hnil
    rw [hnil, List.map_nil, eq_comm, List.map_eq_nil_iff] at hkeys
    exact hne hkeys

/-- Requests of one user: a logline, a plan, a sheet after the plan, and a revision of the plan. -/
def sheetRace : Fin 4 → Request :=
  let headers := [.ofText "x-user-id" "1", .ofText "content-type" "application/json"]
  ![⟨.post, "/api/v1/loglines", headers, "[\"a\",\"A\",\"c\"]"⟩,
    ⟨.post, "/api/v1/story-plans", headers, "[\"p\",\"P\",null,[[\"k\",\"K\"]]]"⟩,
    ⟨.post, "/api/v1/beats-sheets", headers, "[\"a\",\"p\",[[\"k\",\"t\",\"c\"]]]"⟩,
    ⟨.put, "/api/v1/story-plans/p", headers, "[\"P\",null,[[\"m\",\"M\"]]]"⟩]

/-- The plan is revised after the sheet has been checked and before it is stored: the sheet follows
the iteration that it was checked against. -/
theorem traffic_sheets_race :
    let w : Conditions := ⟨fun _ => 0, fun _ => []⟩
    let t := tablesAfter {} sheetRace w [0, 1, 2, 2, 3, 3, 2]
    let sheet : BeatsSheet := ⟨1, 1, 1, [⟨"k", "t", "c"⟩], 0⟩
    t.plans.rows.length = 2 ∧ sheet ∈ t.sheets.rows ∧
      ∃ logline plan, t.logline? 1 = some logline ∧ t.plan? 1 = some plan ∧
        ["k"] = plan.beats.map BeatDefinition.key := by
  intro w t sheet
  have hsheet : sheet ∈ t.sheets.rows := by decide +kernel
  obtain ⟨logline, plan, hlogline, hplan, hkeys, -⟩ := traffic_sheets [0, 1, 2, 2, 3, 3, 2] hsheet
  exact ⟨by decide +kernel, hsheet, logline, plan, hlogline, hplan, hkeys⟩

end Traffic

end Storyline
