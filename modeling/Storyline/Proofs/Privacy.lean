import Mathlib.Data.Fin.VecNotation
import Storyline.Proofs.Session
import Storyline.Proofs.Traffic

/-!
# Users by themselves

A user sees his own loglines and their sheets, and nobody else changes them.

* `Tables.OwnsLogline`, `Tables.OwnsSheet`, `Tables.AgreeFor`: what a user owns, and tables that
  agree on it;
* `Tables.Keyed`: the keys of the rows, by which rows are found;
* `Place.read_congr`: what is read at a personal place;
* `traffic_agreeFor`: the requests of other users;
* `users_isolated`.
-/

namespace Storyline

open Http

namespace Tables

/-- A logline of a user. -/
def OwnsLogline (t : Tables) (user : Int) (row : Logline) : Prop :=
  row ∈ t.loglines.rows ∧ row.userId = user

/-- A sheet for a logline of a user. -/
def OwnsSheet (t : Tables) (user : Int) (sheet : BeatsSheet) : Prop :=
  sheet ∈ t.sheets.rows ∧ ∃ logline, t.OwnsLogline user logline ∧ logline.id = sheet.loglineId

/-- The user owns the same in both tables. -/
structure AgreeFor (user : Int) (t t' : Tables) : Prop where
  loglines : ∀ row, t.OwnsLogline user row ↔ t'.OwnsLogline user row
  sheets : ∀ sheet, t.OwnsSheet user sheet ↔ t'.OwnsSheet user sheet

/-- No two rows have one number, and no user has two loglines of one slug. -/
structure Keyed (t : Tables) : Prop where
  loglineIds : (t.loglines.rows.map (·.id)).Nodup
  loglineSlugs : (t.loglines.rows.map fun row => (row.userId, row.slug)).Nodup
  sheetIds : (t.sheets.rows.map (·.id)).Nodup

variable {user : Int} {t t' t'' : Tables}

theorem AgreeFor.refl (user : Int) (t : Tables) : AgreeFor user t t :=
  ⟨fun _ => .rfl, fun _ => .rfl⟩

theorem AgreeFor.trans (h : AgreeFor user t t') (h' : AgreeFor user t' t'') : AgreeFor user t t'' :=
  ⟨fun row => (h.loglines row).trans (h'.loglines row), fun sheet =>
    (h.sheets sheet).trans (h'.sheets sheet)⟩

theorem SameRows.agreeFor (h : t.SameRows t') (user : Int) : AgreeFor user t t' := by
  constructor
  · intro row
    rw [OwnsLogline, OwnsLogline, h.loglines.rows]
  · intro sheet
    simp only [OwnsSheet, OwnsLogline, h.loglines.rows, h.sheets.rows]

theorem WellFormed.keyed (h : t.WellFormed) : t.Keyed :=
  ⟨h.loglineIds.nodup, h.loglineSlugs, h.sheetIds.nodup⟩

/-! ## What is found -/

theorem loglineBySlug?_eq_some (h : t.Keyed) {slug : String} {row : Logline} :
    t.loglineBySlug? user slug = some row ↔ t.OwnsLogline user row ∧ row.slug = slug := by
  have hkey := find?_eq_some_of_nodup h.loglineSlugs (k := (user, slug)) (a := row)
  simpa [Prod.mk.injEq, and_assoc, loglineBySlug?, OwnsLogline] using hkey

/-- A sheet of a user by its number, with its logline. -/
def ownSheet? (t : Tables) (user id : Int) : Option (BeatsSheet × Logline) :=
  (t.sheet? id).bind fun sheet =>
    ((t.logline? sheet.loglineId).filter (·.userId = user)).map fun logline => (sheet, logline)

theorem ownSheet?_owned {id : Int} {sheet : BeatsSheet} {logline : Logline}
    (h : t.ownSheet? user id = some (sheet, logline)) : (sheet ∈ t.sheets.rows ∧ sheet.id = id) ∧
      t.OwnsLogline user logline ∧ logline.id = sheet.loglineId := by
  obtain ⟨found, hsheet, h⟩ := Option.bind_eq_some_iff.mp h
  obtain ⟨owner, howner, h⟩ := Option.map_eq_some_iff.mp h
  cases h
  obtain ⟨hlogline, huser⟩ := Option.filter_eq_some_iff.mp howner
  obtain ⟨hmem, hid⟩ := mem_of_find? hlogline
  exact ⟨mem_of_find? hsheet, ⟨hmem, of_decide_eq_true huser⟩, hid⟩

theorem ownSheet?_eq_some (h : t.Keyed) {id : Int} {sheet : BeatsSheet} {logline : Logline} :
    t.ownSheet? user id = some (sheet, logline) ↔ (sheet ∈ t.sheets.rows ∧ sheet.id = id) ∧
      t.OwnsLogline user logline ∧ logline.id = sheet.loglineId := by
  refine ⟨ownSheet?_owned, fun ⟨hsheet, ⟨hlogline, huser⟩, hid⟩ => ?_⟩
  have hfound : t.sheet? id = some sheet := (find?_eq_some_of_nodup h.sheetIds).mpr hsheet
  have howner : t.logline? sheet.loglineId = some logline :=
    (find?_eq_some_of_nodup h.loglineIds).mpr ⟨hlogline, hid⟩
  simp [ownSheet?, hfound, howner, Option.filter_some, huser]

/-! ## Tables that agree -/

theorem AgreeFor.mem_sheets (h : AgreeFor user t t') {logline : Logline}
    (hlogline : t.OwnsLogline user logline) {sheet : BeatsSheet}
    (hid : logline.id = sheet.loglineId) :
    sheet ∈ t.sheets.rows ↔ sheet ∈ t'.sheets.rows := by
  constructor
  · exact fun hsheet => ((h.sheets sheet).mp ⟨hsheet, logline, hlogline, hid⟩).1
  · exact fun hsheet =>
      ((h.sheets sheet).mpr ⟨hsheet, logline, (h.loglines logline).mp hlogline, hid⟩).1

section Agree

variable (h : AgreeFor user t t') (ht : t.Keyed) (ht' : t'.Keyed)
include h ht ht'

theorem AgreeFor.loglineBySlug? (slug : String) :
    t.loglineBySlug? user slug = t'.loglineBySlug? user slug := by
  ext row
  rw [loglineBySlug?_eq_some ht, loglineBySlug?_eq_some ht', h.loglines]

theorem AgreeFor.ownSheet? (id : Int) : t.ownSheet? user id = t'.ownSheet? user id := by
  ext ⟨sheet, logline⟩
  rw [ownSheet?_eq_some ht, ownSheet?_eq_some ht', ← h.loglines]
  refine and_congr_left fun ⟨hlogline, hid⟩ => and_congr_left fun _ => ?_
  exact h.mem_sheets hlogline hid

theorem AgreeFor.loglinesOf : t.loglinesOf user = t'.loglinesOf user := by
  refine newestFirst_congr (ht.loglineIds.sublist (List.filter_sublist.map _))
    (ht'.loglineIds.sublist (List.filter_sublist.map _)) fun row => ?_
  simpa [OwnsLogline] using h.loglines row

theorem AgreeFor.sheetsOf {logline : Logline} (hlogline : t.OwnsLogline user logline) :
    t.sheetsOf logline.id = t'.sheetsOf logline.id := by
  refine newestFirst_congr (ht.sheetIds.sublist (List.filter_sublist.map _))
    (ht'.sheetIds.sublist (List.filter_sublist.map _)) fun sheet => ?_
  rw [List.mem_filter, List.mem_filter]
  exact and_congr_left fun hid => h.mem_sheets hlogline (of_decide_eq_true hid).symm

end Agree

end Tables

/-! ## What is read -/

section Reads

variable {t t' : Tables} {user : Int} {slug : String} {r : Request}

theorem ownLogline_congr (h : t.loglineBySlug? user slug = t'.loglineBySlug? user slug) :
    (ownLogline user slug).on t = (ownLogline user slug).on t' := by
  have hanswer : t.answer (.loglineBySlug user slug) = t'.answer (.loglineBySlug user slug) := by
    simp only [Tables.answer, Database.handle, Database.read_calm, h]
  have hquery : (Action.query (.loglineBySlug user slug)).on t =
      (Action.query (.loglineBySlug user slug)).on t' :=
    congrArg (Except.mapError _) hanswer
  simp only [ownLogline, Action.on_bind, Action.on_found, hquery]

theorem ownLogline_owned {row : Logline} (h : (ownLogline user slug).on t = .ok row) :
    t.OwnsLogline user row := by
  simp only [ownLogline, Action.on_bind, Action.on_found] at h
  obtain ⟨found, hanswer, h⟩ := bind_eq_ok.mp h
  have htold := Tables.told_answer rfl (mapError_eq_ok.mp hanswer)
  cases found with
  | none => cases h
  | some owned =>
    cases h
    exact ⟨(htold row rfl).1, (htold row rfl).2.1⟩

theorem on_ownSheet (t : Tables) (user id : Int) : (ownSheet user id).on t =
    match t.ownSheet? user id with
    | some pair => .ok pair
    | none => .error (Error.unknownId "BeatsSheet" id).denial := by
  have hsheet : (Action.query (.sheetById id)).on t = .ok (t.sheet? id) := rfl
  have hlogline : ∀ logline, (Action.query (.loglineById logline)).on t =
      .ok (t.logline? logline) :=
    fun _ => rfl
  simp only [ownSheet, Action.on_bind, Action.on_found, Action.on_pure, hsheet, hlogline,
    Tables.ownSheet?]
  cases t.sheet? id with
  | none => rfl
  | some sheet =>
    simp only [ok_bind, Option.bind_some]
    cases (t.logline? sheet.loglineId).filter (·.userId = user) with
    | none => rfl
    | some logline => rfl

/-- **What is read at a personal place** depends on what the caller owns. -/
theorem Place.read_congr {place : Place} (hplace : place.isPersonal = true) {x : Action Reply}
    (hx : place.read? r = some x) (huser : callerOf r = .ok user) (h : t.AgreeFor user t')
    (ht : t.Keyed) (ht' : t'.Keyed) : x.on t = x.on t' := by
  cases place with
  | loglines =>
    cases hx
    have hrows : ∀ t : Tables, (Action.query (.loglinesOf user)).on t = .ok (t.loglinesOf user) :=
      fun _ => rfl
    simp only [Loglines.list, Action.on_bind, Action.on_check, Action.on_pure, huser,
      ok_bind, hrows, h.loglinesOf ht ht']
  | logline segment =>
    cases hx
    have hown := fun slug => ownLogline_congr (h.loglineBySlug? ht ht' slug)
    simp only [Loglines.get, Action.on_bind, Action.on_check, Action.on_pure, huser, ok_bind, hown]
  | loglineSheets segment =>
    cases hx
    have hown := fun slug => ownLogline_congr (h.loglineBySlug? ht ht' slug)
    simp only [Loglines.sheets, Action.on_bind, Action.on_check, Action.on_pure, huser,
      ok_bind, hown]
    cases slugOf segment with
    | error denial => rfl
    | ok slug =>
      simp only [ok_bind, ← hown]
      cases hlogline : (ownLogline user slug).on t with
      | error denial => rfl
      | ok logline =>
        have hrows : ∀ t : Tables, (Action.query (.sheetsOf logline.id)).on t =
            .ok (t.sheetsOf logline.id) :=
          fun _ => rfl
        simp only [ok_bind, hrows, h.sheetsOf ht ht' (ownLogline_owned hlogline)]
  | sheet segment =>
    cases hx
    simp only [BeatsSheets.get, Action.on_bind, Action.on_check, Action.on_pure, huser,
      ok_bind, on_ownSheet, h.ownSheet? ht ht']
  | _ => cases hplace

theorem get_unknown {segment : List Char} {id : Int} (huser : callerOf r = .ok user)
    (hid : idOf segment = .ok id) (hnone : ∀ sheet, t.OwnsSheet user sheet → sheet.id ≠ id) :
    (BeatsSheets.get segment r).on t = .error (Error.unknownId "BeatsSheet" id).denial := by
  have hown : t.ownSheet? user id = none := by
    cases hfound : t.ownSheet? user id with
    | none => rfl
    | some pair =>
      obtain ⟨sheet, logline⟩ := pair
      obtain ⟨⟨hsheet, hsid⟩, howns⟩ := Tables.ownSheet?_owned hfound
      exact absurd hsid (hnone sheet ⟨hsheet, logline, howns⟩)
  simp only [BeatsSheets.get, Action.on_bind, Action.on_check, huser, hid, ok_bind,
    on_ownSheet, hown]
  rfl

end Reads

/-! ## What others store -/

theorem Permitted.new_logline {r : Request} {t t' : Tables} (h : Permitted r t t') {row : Logline}
    (hnew : row ∈ t'.loglines.rows) (hold : row ∉ t.loglines.rows) :
    callerOf r = .ok row.userId := by
  obtain ⟨q, e, hp, hadds, rfl⟩ := h
  cases hadds with
  | logline now =>
    rw [(Table.mem_append.mp hnew).resolve_left hold]
    cases hp with
    | logline hmethod hplace huser hinput haccept hd =>
      obtain ⟨-, slug, -, rfl⟩ := Loglines.accept_ok haccept
      rcases hd with rfl | ⟨n, -, rfl⟩
      · exact huser
      · exact huser
  | _ => exact absurd hnew hold

/-- **What another may store** is nothing of the user's. -/
theorem Permitted.agreeFor {r : Request} {t t' : Tables} {user : Int} (h : Permitted r t t')
    (ht : t.Keyed) (hcaller : callerOf r ≠ .ok user) : t.AgreeFor user t' := by
  have hloglines : ∀ row, t.OwnsLogline user row ↔ t'.OwnsLogline user row := by
    refine fun row => ⟨fun ⟨hrow, huser⟩ => ⟨h.extends.loglines.mem hrow, huser⟩,
      fun ⟨hrow, huser⟩ => ?_⟩
    by_cases hold : row ∈ t.loglines.rows
    · exact ⟨hold, huser⟩
    · exact absurd (huser ▸ h.new_logline hrow hold) hcaller
  refine ⟨hloglines, fun sheet =>
    ⟨fun ⟨hsheet, logline, hown, hid⟩ => ?_, fun ⟨hsheet, logline, hown, hid⟩ => ?_⟩⟩
  · exact ⟨h.extends.sheets.mem hsheet, logline, (hloglines logline).mp hown, hid⟩
  · have hown := (hloglines logline).mpr hown
    by_cases hold : sheet ∈ t.sheets.rows
    · exact ⟨hold, logline, hown, hid⟩
    · -- the logline of a new sheet is one of the caller, and the only one of its number
      obtain ⟨owner, howner, -, -, hoid, -, -, hcaller'⟩ := h.new_sheet hsheet hold
      have : owner = logline :=
        List.inj_on_of_nodup_map ht.loglineIds howner hown.1 (hoid.trans hid.symm)
      rw [this, hown.2] at hcaller'
      exact absurd hcaller' hcaller

section Traffic

variable {ι : Type} [DecidableEq ι] {s : Service} {requests : ι → Request} {w : Conditions}
  {user : Int}

/-- **The turns of others** leave what the user owns as it is. -/
theorem traffic_agreeFor (before after : List ι)
    (hafter : ∀ i ∈ after, callerOf (requests i) ≠ .ok user) :
    (tablesAfter s requests w before).AgreeFor user
      (tablesAfter s requests w (before ++ after)) := by
  induction after using List.reverseRecOn with
  | nil =>
    rw [List.append_nil]
    exact .refl user _
  | append_singleton after i ih =>
    have hpast := ih fun j hj => hafter j (List.mem_append_left _ hj)
    rw [← List.append_assoc]
    refine hpast.trans ?_
    rcases traffic_step (before ++ after) i with hrows | hpermitted
    · exact hrows.agreeFor user
    · exact hpermitted.agreeFor (wellFormed_tablesAfter s requests w _).keyed (hafter i (by simp))

end Traffic

/-! ## Isolation -/

/-- A request of a user to read something of his own. -/
structure Http.Request.ReadsOwn (r : Request) (user : Int) : Prop where
  reads : r.reads
  caller : callerOf r = .ok user
  place : ∃ place, Place.ofTarget? r.target = some place ∧ place.isPersonal = true

/-- A request has one response from both tables, as long as no statement fails. -/
def SameResponse (s : Service) (r : Request) (t t' : Tables) : Prop :=
  ∀ w w' : Conditions, w.Calm → w'.Calm → ∀ n n',
    ((serve s r).run (Database.under w) (t, n)).1 = ((serve s r).run (Database.under w') (t', n')).1

theorem Tables.AgreeFor.sameResponse {user : Int} {t t' : Tables} (h : t.AgreeFor user t')
    (ht : t.Keyed) (ht' : t'.Keyed) (s : Service) {r : Request} (hr : r.ReadsOwn user) :
    SameResponse s r t t' := by
  obtain ⟨place, hplace, hprivate⟩ := hr.place
  intro w w' hw hw' n n'
  have hread : ∃ x, place.read? r = some x := by
    cases place with
    | sheets => cases hprivate
    | _ => exact ⟨_, rfl⟩
  obtain ⟨x, hx⟩ := hread
  rw [serve_read s hr.reads hplace hx hw, serve_read s hr.reads hplace hx hw',
    Place.read_congr hprivate hx hr.caller h ht ht']

/-- **Users are isolated.** Tables that agree on what a user owns give him the same responses at all
personal places, whatever else they hold. A sheet that is not his is answered like one that does not
exist. And at no time do the requests of others change what he owns, or any of these responses. -/
theorem users_isolated (s : Service) (user : Int) :
    (∀ t t' : Tables, t.Keyed → t'.Keyed → t.AgreeFor user t' → ∀ r : Request, r.ReadsOwn user →
      SameResponse s r t t') ∧
    (∀ (t : Tables) (r : Request) (segment : List Char) (id : Int), r.reads →
      callerOf r = .ok user →
      Place.ofTarget? r.target = some (.sheet segment) → idOf segment = .ok id →
      (∀ sheet, t.OwnsSheet user sheet → sheet.id ≠ id) → ∀ w : Conditions, w.Calm → ∀ n,
      ((serve s r).run (Database.under w) (t, n)).1 =
        Service.sent r (s.dress r (Error.unknownId "BeatsSheet" id).denial.response)) ∧
    ∀ {ι : Type} [DecidableEq ι] (requests : ι → Request) (w : Conditions) (before after : List ι),
      (∀ i ∈ after, callerOf (requests i) ≠ .ok user) →
      let t := tablesAfter s requests w before
      let t' := tablesAfter s requests w (before ++ after)
      t.AgreeFor user t' ∧ ∀ r : Request, r.ReadsOwn user → SameResponse s r t t' := by
  refine ⟨fun t t' ht ht' h r hr => h.sameResponse ht ht' s hr, ?_, ?_⟩
  · intro t r segment id hr huser hplace hid hnone w hw n
    rw [serve_read s hr hplace rfl hw, get_unknown huser hid hnone]
    rfl
  · intro ι _ requests w before after hafter
    have h := traffic_agreeFor (s := s) (w := w) before after hafter
    exact ⟨h, fun r hr => h.sameResponse (wellFormed_tablesAfter s requests w _).keyed
      (wellFormed_tablesAfter s requests w _).keyed s hr⟩

/-- Two users have loglines of one slug. The sheet of the second is as good as none to the first,
and the second stores a further logline. -/
theorem users_isolated_two :
    let headers (user : String) : List Header :=
      [.ofText "x-user-id" user, .ofText "content-type" "application/json"]
    let sheet : Request := ⟨.get, "/api/v1/beats-sheets/7", headers "1", ""⟩
    let loglines : Request := ⟨.get, "/api/v1/loglines", headers "1", ""⟩
    let own : Logline := ⟨1, 1, "a", "A", "c", 0⟩
    let t : Tables :=
      { loglines := ⟨[own, ⟨2, 2, "a", "A", "c", 0⟩], 2⟩, sheets := ⟨[⟨7, 2, 1, [], 0⟩], 7⟩ }
    let t' : Tables := { loglines := ⟨[own], 1⟩ }
    let requests : Fin 2 → Request :=
      ![⟨.post, "/api/v1/loglines", headers "1", "[\"a\",\"A\",\"c\"]"⟩,
      ⟨.post, "/api/v1/loglines", headers "2", "[\"a\",\"A\",\"c\"]"⟩]
    let w : Conditions := ⟨fun _ => 0, fun _ => []⟩
    (SameResponse {} sheet t t' ∧ ((serve {} sheet).run (Database.under w) (t, 0)).1.status = 404) ∧
      (tablesAfter {} requests w [0, 1]).loglines.rows.length = 2 ∧
      SameResponse {} loglines (tablesAfter {} requests w [0])
        (tablesAfter {} requests w [0, 1]) := by
  intro headers sheet loglines own t t' requests w
  have hsheet : sheet.ReadsOwn 1 :=
    ⟨.inl rfl, by decide +kernel, .sheet ['7'], by decide +kernel, rfl⟩
  have hloglines : loglines.ReadsOwn 1 :=
    ⟨.inl rfl, by decide +kernel, .loglines, by decide +kernel, rfl⟩
  have hown : ∀ row, t.OwnsLogline 1 row ↔ row = own := by
    refine fun row => ⟨fun ⟨hrow, huser⟩ => ?_, fun h => h ▸ ⟨List.mem_cons_self, rfl⟩⟩
    rcases List.mem_pair.mp hrow with rfl | rfl
    · rfl
    · cases huser
  have hown' : ∀ row, t'.OwnsLogline 1 row ↔ row = own :=
    fun row => ⟨fun h => List.mem_singleton.mp h.1, fun h => h ▸ ⟨List.mem_cons_self, rfl⟩⟩
  have hnone : ∀ sheet, ¬t.OwnsSheet 1 sheet := by
    rintro sheet ⟨hsheet, logline, hlogline, hid⟩
    rw [List.mem_singleton.mp hsheet, (hown logline).mp hlogline] at hid
    cases hid
  have hagree : t.AgreeFor 1 t' :=
    ⟨fun row => (hown row).trans (hown' row).symm,
      fun sheet => ⟨fun h => absurd h (hnone sheet), fun h => absurd h.1 List.not_mem_nil⟩⟩
  refine ⟨⟨(users_isolated {} 1).1 t t' ⟨by decide, by decide, by decide⟩ ⟨by decide,
    by decide, by decide⟩
    hagree sheet hsheet, by decide +kernel⟩, by decide +kernel, ?_⟩
  exact ((users_isolated {} 1).2.2 requests w [0] [1] (by decide +kernel)).2 loglines hloglines

end Storyline
