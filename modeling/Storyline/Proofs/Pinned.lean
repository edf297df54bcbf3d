import Storyline.Proofs.Dangling
import Storyline.Proofs.Listings
import Storyline.Proofs.Replies
import Storyline.Proofs.Traffic

/-!
# Sheets and their iterations

A new sheet is written after the iteration of a plan that was accepted last, which is looked for by
slug and time. A renewal looks for the same iteration by its number, however many there are by then.

* `Exchange.accepted?`: the iterations that have been accepted, with `currentPlan?_session`;
* `BeatsSheets.run_create`, `BeatsSheets.run_renew`: the lookups before a sheet is stored;
* `Session.ServesSheet`: how a request for a sheet is served;
* `Exchange.Renews`: one sheet in place of another, with `renewed_session`;
* **`sheets_pinned`**: sheets are written after the latest iteration and stay with it.
-/

namespace Storyline

open Http

/-! ## Accepted iterations -/

/-- The beats in the body of a request for a story plan or for a further iteration of one. -/
def Http.Request.definitions? (r : Request) : Option (List BeatDefinition) :=
  match Place.ofTarget? r.target with
  | some .plans => (bodyOf StoryPlanInput.reader r).toOption.map StoryPlanInput.beats
  | some (.plan _) => (bodyOf StoryPlanRevision.reader r).toOption.map StoryPlanRevision.beats
  | _ => none

/-- The data of a successful response to a `POST` or a `PUT` under the slug, with the beats that
were asked for. -/
def Exchange.accepted? (slug : String) (e : Exchange) :
    Option (Json × Option (List BeatDefinition)) :=
  (e.iteration? slug).map fun data => (data, e.request.definitions?)

/-- The iterations of a story plan, with their beats. -/
def acceptedUnder (slug : String) : Listing (Json × Option (List BeatDefinition)) where
  rows t := (t.plans.rows.filter (·.slug = slug)).map fun row => (row.toJson, some row.beats)
  added
    | .plan _ row | .iteration row =>
      if row.slug = slug then some (row.toJson, some row.beats) else none
    | _ => none
  shown := Exchange.accepted? slug

theorem lawful_acceptedUnder (slug : String) : (acceptedUnder slug).Lawful where
  empty := rfl
  sameRows h := by
    simp only [acceptedUnder, h.plans.rows]
  add t e := by
    cases e with
    | plan reservation row =>
      by_cases hslug : row.slug = slug <;> simp [acceptedUnder, Tables.add, Table.append, hslug]
    | iteration row =>
      by_cases hslug : row.slug = slug <;> simp [acceptedUnder, Tables.add, Table.append, hslug]
    | _ => exact (List.append_nil _).symm
  idle hidle := by
    have hnone := (lawful_iterationsUnder slug).idle hidle
    exact congrArg (Option.map _) hnone
  stored := by
    intro r response t q e hp hadds hsucceeds hcreated hshows
    have hshown : Exchange.iteration? slug ⟨r, response⟩ = (iterationsUnder slug).added e :=
      (lawful_iterationsUnder slug).stored hp hadds hsucceeds hcreated hshows
    simp only [acceptedUnder, Exchange.accepted?, hshown]
    cases hp.fulfils hadds with
    | @plan input _ _ row hmethod hplace hinput hbody hslug hname hdescription hbeats =>
      have hdefinitions : r.definitions? = some row.beats := by
        simp [Request.definitions?, hplace, hinput, Except.toOption, hbeats]
      by_cases h : row.slug = slug <;> simp [iterationsUnder, hdefinitions, h]
    | @iteration _ _ input row hmethod hplace hslug hinput hbody hname hdescription hbeats =>
      have hdefinitions : r.definitions? = some row.beats := by
        simp [Request.definitions?, hplace, hinput, Except.toOption, hbeats]
      by_cases h : row.slug = slug <;> simp [iterationsUnder, hdefinitions, h]
    | logline => rfl
    | sheet => rfl
    | renewal => rfl

/-- **The current iteration** is the one that was accepted last. -/
theorem currentPlan?_session {s : Service} {w : Conditions} (htime : Monotone w.time)
    (requests : List Request) (slug : String) :
    ((session s w requests).tables.currentPlan? slug).map (fun row =>
      (row.toJson, some row.beats)) =
      ((session s w requests).exchanges.filterMap (Exchange.accepted? slug)).getLast? := by
  have hsorted := (session_chronological (s := s) htime requests).plans.sorted
  have hrows := (lawful_acceptedUnder slug).session s w requests
  rw [Tables.currentPlan?, Tables.planIterations, iterationsOf,
    newestFirst_of_older (hsorted.filter _), List.head?_reverse, ← List.getLast?_map]
  exact congrArg List.getLast? hrows

/-! ## Storing a sheet -/

section Runs

open Storyline.Action

variable {w : Conditions} {t : Tables} {r : Request} {user : Int} {logline : Logline}
  {plan : StoryPlan}

theorem on_currentPlan (ht : t.WellFormed) {slug : String}
    (hplan : t.currentPlan? slug = some plan) :
    (currentPlan slug).on t = .ok plan := by
  obtain ⟨hmem, hslug⟩ := Tables.currentPlan?_eq_some hplan
  have hnul : holdsNul slug = false := holdsNul_of_check (hslug ▸ (ht.plans plan hmem).slug)
  have hanswer : t.answer (.currentPlan slug) = .ok (some plan) := by
    rw [Tables.answer, Database.handle, Database.read_calm, hplan]
    simp [hnul]
  have hquery : (Action.query (.currentPlan slug)).on t = .ok (some plan) :=
    congrArg (Except.mapError _) hanswer
  simp only [currentPlan, Action.on_bind, Action.on_found, hquery, ok_bind]

theorem BeatsSheets.run_store (hw : w.Calm) (hlogline : logline ∈ t.loglines.rows)
    (hplan : plan ∈ t.plans.rows) {content : List Beat}
    (hcontent : (content.flatMap Beat.texts).any holdsNul = false) (n : Nat) :
    (store logline plan content).run.run (Database.under w) (t, n) =
      match checkContent content plan.beats with
      | .error e => (.error e.denial, t, n)
      | .ok () =>
        let row : BeatsSheet := ⟨t.sheets.nextId, logline.id, plan.id, content, w.time n⟩
        (.ok (.created row.toJson), t.add (.sheet row), n + 1) := by
  cases hcheck : checkContent content plan.beats with
  | error e =>
    simp only [store, hcheck]
    rfl
  | ok _ =>
    let d : NewBeatsSheet := ⟨logline.id, plan.id, content⟩
    let row : BeatsSheet := ⟨t.sheets.nextId, logline.id, plan.id, content, w.time n⟩
    have hgrounded : (Query.insertSheet d).Grounded t :=
      ⟨⟨logline, hlogline, rfl⟩, plan, hplan, rfl⟩
    have hstored : Database.under w (.insertSheet d) (t, n) =
        (.ok row, t.add (.sheet row), n + 1) := by
      have hexecute := Database.execute_calm List.any_nil hcontent .insertSheet
        (fun now => Tables.insertSheet now d) t (w.time n)
      rw [Tables.insertSheet_grounded hgrounded] at hexecute
      rw [Database.under_calm hw, Database.handle, hexecute]
    have hcreated := run_query hstored fun row => pure (Reply.created row.toJson)
    simp only [store, hcheck]
    exact hcreated

theorem BeatsSheets.run_create (hw : w.Calm) (ht : t.WellFormed) {input : BeatsSheetInput}
    (huser : callerOf r = .ok user) (hinput : bodyOf BeatsSheetInput.reader r = .ok input)
    (hlogline : t.OwnsLogline user logline) (hslug : logline.slug = input.loglineSlug)
    (hplan : t.currentPlan? input.storyPlanSlug = some plan) (n : Nat) :
    ∃ n', (create r).run.run (Database.under w) (t, n) =
      (store logline plan input.content).run.run (Database.under w) (t, n') := by
  have hcreate : create r = ownLogline user logline.slug >>= fun logline =>
      currentPlan input.storyPlanSlug >>= fun plan => store logline plan input.content := by
    simp only [create, huser, hinput, hslug]
    rfl
  rw [hcreate]
  obtain ⟨m, hm⟩ := (lawful_ownLogline user logline.slug).run_bind hw (on_ownLogline ht hlogline)
    (fun logline => currentPlan input.storyPlanSlug >>= fun plan =>
      store logline plan input.content) n
  obtain ⟨n', hn'⟩ := (lawful_currentPlan input.storyPlanSlug).run_bind hw (on_currentPlan ht hplan)
    (fun plan => store logline plan input.content) m
  exact ⟨n', hm.trans hn'⟩

theorem BeatsSheets.run_renew (hw : w.Calm) (ht : t.WellFormed) {segment : List Char}
    {input : ContentInput} {sheet : BeatsSheet} (huser : callerOf r = .ok user)
    (hid : idOf segment = .ok sheet.id) (hinput : bodyOf ContentInput.reader r = .ok input)
    (hsheet : sheet ∈ t.sheets.rows) (hlogline : t.OwnsLogline user logline)
    (hlid : logline.id = sheet.loglineId) (hplan : plan ∈ t.plans.rows)
    (hpid : plan.id = sheet.storyPlanId) (n : Nat) :
    ∃ n', (renew segment r).run.run (Database.under w) (t, n) =
      (store logline plan input.content).run.run (Database.under w) (t, n') := by
  have hrenew : renew segment r = ownSheet user sheet.id >>= fun pair =>
      Action.query (.planById pair.1.storyPlanId) >>= fun plan? =>
        found (.unknownId "StoryPlan" pair.1.storyPlanId) plan? >>= fun plan =>
          store pair.2 plan input.content := by
    simp only [renew, huser, hid, hinput]
    rfl
  have hown : (ownSheet user sheet.id).on t = .ok (sheet, logline) := by
    rw [on_ownSheet, (Tables.ownSheet?_eq_some ht.keyed).mpr ⟨⟨hsheet, rfl⟩, hlogline, hlid⟩]
  have hfound : (Action.query (.planById sheet.storyPlanId)).on t = .ok (some plan) :=
    congrArg Except.ok (hpid ▸ ht.planIds.find? hplan)
  rw [hrenew]
  obtain ⟨m, hm⟩ := (lawful_ownSheet user sheet.id).run_bind hw hown (fun pair =>
    Action.query (.planById pair.1.storyPlanId) >>= fun plan? =>
      found (.unknownId "StoryPlan" pair.1.storyPlanId) plan? >>= fun plan =>
        store pair.2 plan input.content) n
  obtain ⟨n', hn'⟩ := (lawful_query rfl).run_bind hw hfound (fun plan? =>
    found (.unknownId "StoryPlan" sheet.storyPlanId) plan? >>= fun plan =>
      store logline plan input.content) m
  exact ⟨n', hm.trans hn'⟩

end Runs

/-! ## Requests for sheets -/

/-- A user's request for a sheet, with beats that the tables can hold. -/
structure Http.Request.AsksForSheet (r : Request) (user : Int) (input : BeatsSheetInput) :
    Prop where
  method : r.method = .post
  place : Place.ofTarget? r.target = some .sheets
  caller : callerOf r = .ok user
  body : bodyOf BeatsSheetInput.reader r = .ok input
  storable : (input.content.flatMap Beat.texts).any holdsNul = false

/-- A user's request for a sheet in place of the one of a number, with beats that the tables can
hold. -/
structure Http.Request.AsksForRenewal (r : Request) (user id : Int) (content : List Beat) :
    Prop where
  method : r.method = .put
  place : ∃ segment, Place.ofTarget? r.target = some (.sheet segment) ∧ idOf segment = .ok id
  caller : callerOf r = .ok user
  body : bodyOf ContentInput.reader r = .ok ⟨content⟩
  storable : (content.flatMap Beat.texts).any holdsNul = false

section Serve

variable (s : Service) (w : Conditions) (x : Session) (r : Request)

/-- A request for a sheet is served: the sheet is created if its beats follow the definitions, and
otherwise not. -/
structure Session.ServesSheet (d : NewBeatsSheet) (definitions : List BeatDefinition) : Prop where
  created_iff : (x.answer s w r).status = 201 ↔ checkContent d.content definitions = .ok ()
  stored : (x.answer s w r).status = 201 → ∃ id now,
    let row : BeatsSheet := ⟨id, d.loglineId, d.storyPlanId, d.content, now⟩
    (x.serve s w r).tables = x.tables.add (.sheet row) ∧ (x.answer s w r).shows row.toJson

end Serve

section Sessions

variable {s : Service} {w : Conditions} {x : Session} {r : Request} {user : Int}

theorem Session.servesSheet_of_run (hw : w.Calm) {place : Place} {action :
    Action Reply} (hr : r.writes)
    (hplace : Place.ofTarget? r.target = some place) (hx : place.action? s.policy r = some action)
    {logline : Logline} {plan : StoryPlan} {content : List Beat} (hlogline :
      logline ∈ x.tables.loglines.rows)
    (hplan : plan ∈ x.tables.plans.rows) (hcontent :
      (content.flatMap Beat.texts).any holdsNul = false)
    (hrun : ∃ n, action.run.run (Database.under w) (x.tables, x.queries) =
      (BeatsSheets.store logline plan content).run.run (Database.under w) (x.tables, n)) :
    x.ServesSheet s w r ⟨logline.id, plan.id, content⟩ plan.beats := by
  obtain ⟨n, hrun⟩ := hrun
  rw [BeatsSheets.run_store hw hlogline hplan hcontent] at hrun
  have hoptions : r.method ≠ .options := by
    rcases hr with h | h <;> simp [h]
  have hserve := run_serve hoptions hplace hx (Database.under w) (x.tables, x.queries)
  rw [hrun] at hserve
  have hanswer : x.answer s w r = Service.sent r (s.dress r _) := congrArg Prod.fst hserve
  have htables : (x.serve s w r).tables = _ := congrArg (fun result => result.2.1) hserve
  cases hcheck : checkContent content plan.beats with
  | error e =>
    simp only [hcheck] at hanswer
    have hstatus : (x.answer s w r).status ≠ 201 := by
      rw [hanswer, Service.sent_status]
      have hdenied := e.denial.le_status
      exact fun h => absurd (h ▸ hdenied) (by decide)
    exact ⟨⟨fun h => absurd h hstatus, fun h => by cases hcheck.symm.trans h⟩, fun h =>
      absurd h hstatus⟩
  | ok _ =>
    simp only [hcheck] at hanswer htables
    have hstatus : (x.answer s w r).status = 201 := by
      rw [hanswer, Service.sent_status]
      rfl
    refine ⟨⟨fun _ => hcheck, fun _ => hstatus⟩, fun _ => ⟨_, _, htables, ?_⟩⟩
    rw [Response.shows, hanswer, s.sent_body hr]
    rfl

theorem Session.servesSheet_create (hw : w.Calm) (hx : x.tables.WellFormed)
    {input : BeatsSheetInput} (hr : r.AsksForSheet user input) {logline : Logline}
    (hlogline : x.tables.OwnsLogline user logline) (hslug : logline.slug = input.loglineSlug)
    {plan : StoryPlan} (hplan : x.tables.currentPlan? input.storyPlanSlug = some plan) :
    x.ServesSheet s w r ⟨logline.id, plan.id, input.content⟩ plan.beats := by
  have haction : Place.sheets.action? s.policy r = some (BeatsSheets.create r) := by
    simp [Place.action?, hr.method]
  exact servesSheet_of_run hw (.inl hr.method) hr.place haction hlogline.1
    (Tables.currentPlan?_eq_some hplan).1
    hr.storable (BeatsSheets.run_create hw hx hr.caller hr.body hlogline hslug hplan x.queries)

theorem Session.servesSheet_renew (hw : w.Calm) (hx : x.tables.WellFormed) {sheet : BeatsSheet}
    {content : List Beat} (hr : r.AsksForRenewal user sheet.id content)
    (hsheet : x.tables.OwnsSheet user sheet) {plan : StoryPlan} (hplan : plan ∈ x.tables.plans.rows)
    (hid : plan.id = sheet.storyPlanId) :
    x.ServesSheet s w r ⟨sheet.loglineId, sheet.storyPlanId, content⟩ plan.beats := by
  obtain ⟨hmem, logline, hlogline, hlid⟩ := hsheet
  obtain ⟨segment, hplace, hsegment⟩ := hr.place
  have haction : (Place.sheet segment).action? s.policy r = some (BeatsSheets.renew segment r) := by
    simp [Place.action?, hr.method]
  rw [← hlid, ← hid]
  exact servesSheet_of_run hw (.inr hr.method) hplace haction hlogline.1 hplan hr.storable
    (BeatsSheets.run_renew hw hx hr.caller hsegment hr.body hmem hlogline hlid hplan hid x.queries)

/-! ## Sheets in the tables -/

theorem sheetsFollow_session (requests : List Request) :
    (session s w requests).tables.SheetsFollow :=
  session_tables_induction nofun (fun _ _ h ht => h.of_sameRows ht) (fun _ _ _ h ht =>
    h.permitted ht) requests

/-- The exchange has put one sheet in the place of another. -/
def Exchange.Renews (e : Exchange) (previous next : Int) : Prop :=
  e.request.method = .put ∧ e.response.status = 201 ∧
    (∃ segment, Place.ofTarget? e.request.target = some (.sheet segment) ∧
      idOf segment = .ok previous) ∧
    e.response.data?.bind (Json.int? "id") = some next

/-- Two sheets are in the tables that have their logline and their iteration in common. -/
def Tables.HasAlike (t : Tables) (previous next : Int) : Prop :=
  ∃ a ∈ t.sheets.rows, ∃ b ∈ t.sheets.rows, a.id = previous ∧ b.id = next ∧
    b.loglineId = a.loglineId ∧ b.storyPlanId = a.storyPlanId

theorem Tables.HasAlike.extends {t t' : Tables} {previous next : Int} (h : t.HasAlike previous next)
    (ht : t.Extends t') : t'.HasAlike previous next := by
  obtain ⟨a, ha, b, hb, halike⟩ := h
  exact ⟨a, ht.sheets.mem ha, b, ht.sheets.mem hb, halike⟩

/-- **A renewal** keeps the logline and the iteration of the sheet. -/
theorem Session.hasAlike_serve (x : Session) (r : Request) {previous next : Int}
    (h : Exchange.Renews ⟨r, x.answer s w r⟩ previous next) :
    (x.serve s w r).tables.HasAlike previous next := by
  obtain ⟨hmethod, hstatus, ⟨segment, hplace, hid⟩, hnext⟩ := h
  have hsucceeds : (x.answer s w r).succeeds := Response.succeeds_of_created hstatus
  rcases x.serve_cases r with ⟨-, hidle⟩ | ⟨t, q, e, ht, hp, hadds, htables, -, -, hshows⟩
  · exact absurd hsucceeds (hidle (.inr hmethod))
  rw [htables]
  rw [Response.data?_of_shows hshows] at hnext
  cases hp.fulfils hadds with
  | @renewal id segment' _ old row hmethod' hplace' hid' hinput hbody hprevious hcontent hrow =>
    obtain rfl : segment = segment' := Place.sheet.inj (Option.some.inj (hplace.symm.trans hplace'))
    obtain rfl : previous = id := Except.ok.inj (hid.symm.trans hid')
    obtain rfl : row.id = next := Option.some.inj (row.int?_id.symm.trans hnext)
    exact ⟨old, Table.mem_append.mpr (.inl hprevious.1), row, Table.mem_append.mpr (.inr rfl),
      hprevious.2, rfl, hrow⟩
  | logline hmethod' => cases hmethod.symm.trans hmethod'
  | plan hmethod' => cases hmethod.symm.trans hmethod'
  | sheet hmethod' => cases hmethod.symm.trans hmethod'
  | iteration hmethod' hplace' => cases hplace.symm.trans hplace'

theorem renewed_session (requests : List Request) : ∀ e ∈ (session s w requests).exchanges,
    ∀ previous next, e.Renews previous next →
      (session s w requests).tables.HasAlike previous next := by
  refine session_induction (P := fun x =>
    ∀ e ∈ x.exchanges, ∀ previous next, e.Renews previous next →
    x.tables.HasAlike previous next) nofun (fun x r ih e he previous next hrenews => ?_) requests
  rcases List.mem_append.mp he with he | he
  · exact (ih e he previous next hrenews).extends (x.extends_serve r)
  · rw [List.mem_singleton.mp he] at hrenews
    exact x.hasAlike_serve r hrenews

/-- One sheet of the session after another, each in the place of the one before. -/
def Session.Renewed (x : Session) : Int → Int → Prop :=
  Relation.ReflTransGen fun previous next => ∃ e ∈ x.exchanges, e.Renews previous next

theorem renewed_alike (requests : List Request) {sheet later : BeatsSheet}
    (hsheet : sheet ∈ (session s w requests).tables.sheets.rows)
    (hlater : later ∈ (session s w requests).tables.sheets.rows)
    (h : (session s w requests).Renewed sheet.id later.id) :
    later.loglineId = sheet.loglineId ∧ later.storyPlanId = sheet.storyPlanId := by
  have hids := (session_wellFormed (s := s) (w := w) requests).sheetIds.nodup
  generalize hid : later.id = id at h
  -- on the chain from its end: the sheet before the last has been renewed by one exchange
  induction h generalizing later with
  | refl =>
    rw [List.inj_on_of_nodup_map hids hlater hsheet hid]
    exact ⟨rfl, rfl⟩
  | tail hchain hlast ih =>
    obtain ⟨e, he, hrenews⟩ := hlast
    obtain ⟨a, ha, b, hb, haid, hbid, hlogline, hplan⟩ := renewed_session requests e he _ _ hrenews
    rw [List.inj_on_of_nodup_map hids hlater hb (hid.trans hbid.symm)]
    obtain ⟨hlogline', hplan'⟩ := ih ha haid
    exact ⟨hlogline.trans hlogline', hplan.trans hplan'⟩

/-- **A sheet is written after the latest iteration, and stays with it.** A user's `POST` of a sheet
for one of his loglines and for a plan is compared with the iteration that was accepted last, and
stored with its number. A `PUT` of his sheet is compared with the iteration of that sheet, however
many requests have come in between, and stored with the same logline and iteration, along any chain
of sheets; the beats of the sheet itself always pass. -/
theorem sheets_pinned (hw : w.Calm) (htime : Monotone w.time) (before after : List Request)
    (r : Request) :
    let x := session s w before
    let y := session s w (before ++ after)
    (∀ user input logline, r.AsksForSheet user input → x.tables.OwnsLogline user logline →
      logline.slug = input.loglineSlug →
        (∃ plan ∈ x.tables.plans.rows, plan.slug = input.storyPlanSlug) →
      ∃ plan ∈ x.tables.plans.rows,
        (x.exchanges.filterMap (Exchange.accepted? input.storyPlanSlug)).getLast? =
          some (plan.toJson, some plan.beats) ∧
        x.ServesSheet s w r ⟨logline.id, plan.id, input.content⟩ plan.beats) ∧
    (∀ user sheet content, r.AsksForRenewal user sheet.id content → x.tables.OwnsSheet user sheet →
      ∃ plan ∈ x.tables.plans.rows, plan.id = sheet.storyPlanId ∧
        y.ServesSheet s w r ⟨sheet.loglineId, sheet.storyPlanId, content⟩ plan.beats ∧
        (content = sheet.content → (y.answer s w r).status = 201)) ∧
    ∀ sheet ∈ y.tables.sheets.rows, ∀ later ∈ y.tables.sheets.rows, y.Renewed sheet.id later.id →
      later.loglineId = sheet.loglineId ∧ later.storyPlanId = sheet.storyPlanId := by
  intro x y
  have hgrow : x.tables.Extends y.tables := session_extends before after
  refine ⟨?_, ?_, fun sheet hsheet later hlater => renewed_alike (before ++ after) hsheet hlater⟩
  · intro user input logline hr hlogline hslug hsome
    obtain ⟨plan, hplan⟩ := Tables.exists_currentPlan? hsome
    have hlast := currentPlan?_session (s := s) htime before input.storyPlanSlug
    rw [hplan] at hlast
    exact ⟨plan, (Tables.currentPlan?_eq_some hplan).1, hlast.symm,
      Session.servesSheet_create hw (session_wellFormed before) hr hlogline hslug hplan⟩
  · intro user sheet content hr hsheet
    obtain ⟨plan, hplan, hid, hkeys⟩ := sheetsFollow_session before sheet hsheet.1
    have hown : y.tables.OwnsSheet user sheet := by
      obtain ⟨hmem, logline, ⟨hlogline, huser⟩, hlid⟩ := hsheet
      exact ⟨hgrow.sheets.mem hmem, logline, ⟨hgrow.loglines.mem hlogline, huser⟩, hlid⟩
    have hserves : y.ServesSheet s w r ⟨sheet.loglineId, sheet.storyPlanId, content⟩ plan.beats :=
      Session.servesSheet_renew hw (session_wellFormed _) hr hown (hgrow.plans.mem hplan) hid
    refine ⟨plan, hplan, hid, hserves, fun hcontent => hserves.created_iff.mpr ?_⟩
    rw [hcontent]
    exact checkContent_of_keys hkeys

/-- A plan is revised after a sheet has been written: the next sheet needs the new key, the renewal
the old one. -/
theorem sheets_pinned_revised :
    let headers : List Header :=
      [.ofText "x-user-id" "1", .ofText "content-type" "application/json"]
    let before : List Request :=
      [⟨.post, "/api/v1/loglines", headers, "[\"a\",\"A\",\"c\"]"⟩,
        ⟨.post, "/api/v1/story-plans", headers, "[\"p\",\"P\",null,[[\"k\",\"K\"]]]"⟩,
        ⟨.post, "/api/v1/beats-sheets", headers, "[\"a\",\"p\",[[\"k\",\"t\",\"c\"]]]"⟩]
    let after : List Request :=
      [⟨.put, "/api/v1/story-plans/p", headers, "[\"P\",null,[[\"m\",\"M\"]]]"⟩]
    let creation : Request :=
      ⟨.post, "/api/v1/beats-sheets", headers, "[\"a\",\"p\",[[\"m\",\"t\",\"c\"]]]"⟩
    let renewal : Request := ⟨.put, "/api/v1/beats-sheets/1", headers, "[[[\"k\",\"t\",\"c\"]]]"⟩
    let w : Conditions := ⟨fun _ => 0, fun _ => []⟩
    let x := session {} w before
    let y := session {} w (before ++ after)
    let z := session {} w (before ++ after ++ [renewal])
    let input : BeatsSheetInput := ⟨"a", "p", [⟨"m", "t", "c"⟩]⟩
    let logline : Logline := ⟨1, 1, "a", "A", "c", 0⟩
    let sheet : BeatsSheet := ⟨1, 1, 1, [⟨"k", "t", "c"⟩], 0⟩
    let later : BeatsSheet := { sheet with id := 2 }
    (creation.AsksForSheet 1 input ∧ y.tables.OwnsLogline 1 logline ∧ ∃ plan ∈ y.tables.plans.rows,
        (y.exchanges.filterMap (Exchange.accepted? "p")).getLast? =
          some (plan.toJson, some plan.beats) ∧
        y.ServesSheet {} w creation ⟨1, plan.id, input.content⟩ plan.beats) ∧
      (renewal.AsksForRenewal 1 1 sheet.content ∧ x.tables.OwnsSheet 1 sheet ∧
        (y.answer {} w renewal).status = 201) ∧
      z.Renewed 1 2 ∧ sheet ∈ z.tables.sheets.rows ∧ later ∈ z.tables.sheets.rows ∧
      later.storyPlanId = sheet.storyPlanId := by
  intro headers before after creation renewal w x y z input logline sheet later
  have hw : w.Calm := fun _ => rfl
  have hcreation : creation.AsksForSheet 1 input :=
    ⟨rfl, by decide +kernel, by decide +kernel, by decide +kernel, by decide +kernel⟩
  have hrenewal : renewal.AsksForRenewal 1 1 sheet.content :=
    ⟨rfl, ⟨['1'], by decide +kernel, by decide +kernel⟩, by decide +kernel, by decide +kernel,
      by decide +kernel⟩
  have hlogline : y.tables.OwnsLogline 1 logline := ⟨by decide +kernel, rfl⟩
  have hsheet : x.tables.OwnsSheet 1 sheet :=
    ⟨by decide +kernel, logline, ⟨by decide +kernel, rfl⟩, rfl⟩
  have hplan : ∃ plan ∈ y.tables.plans.rows, plan.slug = "p" := by decide +kernel
  have hrenewed : z.Renewed 1 2 := by
    have hz : z = y.serve {} w renewal := session_concat (before ++ after) renewal
    refine .single ⟨⟨renewal, y.answer {} w renewal⟩, ?_, rfl, by decide +kernel, ?_,
      by decide +kernel⟩
    · rw [hz, Session.exchanges_serve]
      exact List.mem_append_right _ (List.mem_singleton.mpr rfl)
    · exact ⟨['1'], by decide +kernel, by decide +kernel⟩
  have hsheets : sheet ∈ z.tables.sheets.rows ∧ later ∈ z.tables.sheets.rows := by decide +kernel
  refine ⟨⟨hcreation, hlogline, ?_⟩, ⟨hrenewal, hsheet, ?_⟩, hrenewed, hsheets.1, hsheets.2, ?_⟩
  · exact (sheets_pinned hw monotone_const (before ++ after) [] creation).1 1 input logline
      hcreation hlogline rfl
      hplan
  · obtain ⟨plan, -, -, -, hsame⟩ :=
      (sheets_pinned hw monotone_const before after renewal).2.1 1 sheet sheet.content
        hrenewal hsheet
    exact hsame rfl
  · have hpinned :=
      (sheets_pinned (s := {}) hw monotone_const (before ++ after) [renewal] creation).2.2
    exact (hpinned sheet hsheets.1 later hsheets.2 hrenewed).2

end Sessions

end Storyline
