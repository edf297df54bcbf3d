import Storyline.Proofs.History
import Storyline.Proofs.Privacy
import Storyline.Proofs.Stamps

/-!
# Lists

A list is what has been shown before, the latest first. For the rows of a session are what its
exchanges have shown, and they come in the order of their stamps, by which a list is sorted.

* `Table.Chronological.listed`: the list of a table's rows;
* `loglinesOf_session`, `sheetsOf_session`, `planIterations_session`: the lists of a session's
  tables;
* `Loglines.on_list`, `Loglines.on_sheets`, `StoryPlans.on_iterations`: what is asked for when they
  are read;
* `answer_loglines`, `answer_loglineSheets`, `answer_planIterations`: the responses, with
  `listings_history`.
-/

namespace Storyline

open Http

/-! ## The lists of the tables -/

theorem Table.Chronological.listed {ρ : Type} {stamp : ρ → Stamp} {now : Timestamp} {t : Table ρ}
    (h : t.Chronological stamp now) (p : ρ → Bool) (f : ρ → Json) :
    (newestFirst stamp (t.rows.filter p)).map f = ((t.rows.filter p).map f).reverse := by
  rw [newestFirst_of_older (h.sorted.filter p), List.map_reverse]

section Tables

variable {s : Service} {w : Conditions} (htime : Monotone w.time) (requests : List Request)
include htime

theorem loglinesOf_session (user : Int) :
    ((session s w requests).tables.loglinesOf user).map Logline.toJson =
      ((session s w requests).exchanges.filterMap (Exchange.logline? user)).reverse := by
  have hsorted := (session_chronological (s := s) htime requests).loglines
  have hrows := (lawful_loglinesBy user).session s w requests
  rw [Tables.loglinesOf, hsorted.listed]
  exact congrArg List.reverse hrows

theorem sheetsOf_session (logline : Int) :
    ((session s w requests).tables.sheetsOf logline).map BeatsSheet.toJson =
      ((session s w requests).exchanges.filterMap (Exchange.sheet? logline)).reverse := by
  have hsorted := (session_chronological (s := s) htime requests).sheets
  have hrows := (lawful_sheetsFor logline).session s w requests
  rw [Tables.sheetsOf, hsorted.listed]
  exact congrArg List.reverse hrows

theorem planIterations_session (slug : String) :
    ((session s w requests).tables.planIterations slug).map StoryPlan.toJson =
      ((session s w requests).exchanges.filterMap (Exchange.iteration? slug)).reverse := by
  have hsorted := (session_chronological (s := s) htime requests).plans
  have hrows := (lawful_iterationsUnder slug).session s w requests
  rw [Tables.planIterations, iterationsOf, hsorted.listed]
  exact congrArg List.reverse hrows

end Tables

/-! ## What is asked for -/

theorem holdsNul_of_check {slug : String} (h : Slug.check slug = .ok ()) :
    holdsNul slug = false := by
  have hwords : Slug.joinsWords false slug.toList = true := (Slug.check_eq_ok.mp h).1
  rw [holdsNul, List.contains_eq_mem, decide_eq_false_iff_not]
  intro hmem
  rcases Slug.joinsWords_chars hwords _ hmem with h | h
  · exact absurd h (by decide)
  · exact absurd h (by decide)

section Reads

variable {t : Tables} {r : Request} {user : Int} {segment : List Char} {slug : String}

theorem Loglines.on_list (huser : callerOf r = .ok user) :
    (Loglines.list r).on t = .ok (.ok (.arr ((t.loglinesOf user).map Logline.toJson))) := by
  have hrows : (Action.query (.loglinesOf user)).on t = .ok (t.loglinesOf user) := rfl
  simp only [Loglines.list, Action.on_bind, Action.on_check, Action.on_pure, huser, ok_bind, hrows]

theorem on_ownLogline (ht : t.WellFormed) {logline : Logline} (hown : t.OwnsLogline user logline) :
    (ownLogline user logline.slug).on t = .ok logline := by
  have hnul : holdsNul logline.slug = false := holdsNul_of_check (ht.loglines logline hown.1).slug
  have hanswer : t.answer (.loglineBySlug user logline.slug) = .ok (some logline) := by
    have hfound := (Tables.loglineBySlug?_eq_some ht.keyed).mpr ⟨hown, rfl⟩
    rw [Tables.answer, Database.handle, Database.read_calm, hfound]
    simp [hnul]
  have hquery : (Action.query (.loglineBySlug user logline.slug)).on t = .ok (some logline) :=
    congrArg (Except.mapError _) hanswer
  simp only [ownLogline, Action.on_bind, Action.on_found, hquery, ok_bind]

theorem Loglines.on_sheets (ht : t.WellFormed) (huser : callerOf r = .ok user) {logline : Logline}
    (hown : t.OwnsLogline user logline) (hslug : slugOf segment = .ok logline.slug) :
    (Loglines.sheets segment r).on t =
      .ok (.ok (.arr ((t.sheetsOf logline.id).map BeatsSheet.toJson))) := by
  have hrows : (Action.query (.sheetsOf logline.id)).on t = .ok (t.sheetsOf logline.id) := rfl
  simp only [Loglines.sheets, Action.on_bind, Action.on_check, Action.on_pure, huser,
    hslug, ok_bind, on_ownLogline ht hown, hrows]

/-- The iterations of a plan are found under its slug. A text that the tables cannot hold is not
looked for. -/
theorem StoryPlans.on_iterations (hslug : slugOf segment = .ok slug) :
    (StoryPlans.iterations segment).on t =
      if holdsNul slug = true then .error (.refused (.failure .unstorableText))
      else if t.planIterations slug = [] then .error (Error.unknownSlug "StoryPlan" slug).denial
      else .ok (.ok (.arr ((t.planIterations slug).map StoryPlan.toJson))) := by
  have hanswer : t.answer (.planIterations slug) =
      if holdsNul slug = true then .error .unstorableText else .ok (t.planIterations slug) := by
    rw [Tables.answer, Database.handle, Database.read_calm, List.any_cons, List.any_nil,
      Bool.or_false]
  have hquery : (Action.query (.planIterations slug)).on t =
      (t.answer (.planIterations slug)).mapError fun f => .refused (.failure f) := rfl
  simp only [StoryPlans.iterations, Action.on_bind, Action.on_check, hslug, ok_bind,
    hquery, hanswer]
  by_cases hnul : holdsNul slug = true
  · rw [if_pos hnul, if_pos hnul]
    rfl
  · rw [if_neg hnul, if_neg hnul]
    cases t.planIterations slug with
    | nil => rfl
    | cons row rows => rfl

theorem holdsNul_of_iterations (ht : t.WellFormed) (h : t.planIterations slug ≠ []) :
    holdsNul slug = false := by
  obtain ⟨row, hrow⟩ := List.exists_mem_of_ne_nil _ h
  obtain ⟨hmem, rfl⟩ := Tables.mem_planIterations.mp hrow
  exact holdsNul_of_check (ht.plans row hmem).slug

end Reads

/-! ## Responses -/

/-- A response that lists items. -/
def Http.Response.lists (response : Response) (items : List Json) : Prop :=
  response.status = 200 ∧ response.shows (.arr items)

section Responses

variable {s : Service} {w : Conditions} {r : Request}

theorem Session.answer_get (hw : w.Calm) (hget : r.method = .get) {place : Place}
    {action : Action Reply} (hplace : Place.ofTarget? r.target = some place)
    (hread : place.read? r = some action) (x : Session) :
    x.answer s w r = s.dress r (.ofOutcome (action.on x.tables)) := by
  have hhead : r.method ≠ .head := by simp [hget]
  rw [answer, serve_read s (.inl hget) hplace hread hw, Service.sent, if_neg hhead]

theorem ownsLogline_of_shown (requests : List Request) {user : Int} {data : Json}
    (h : data ∈ (session s w requests).exchanges.filterMap (Exchange.logline? user)) :
    ∃ row, (session s w requests).tables.OwnsLogline user row ∧ row.toJson = data := by
  have hrows : (loglinesBy user).rows (session s w requests).tables =
      (session s w requests).exchanges.filterMap (Exchange.logline? user) :=
    (lawful_loglinesBy user).session s w requests
  rw [← hrows] at h
  obtain ⟨row, hrow, rfl⟩ := List.mem_map.mp h
  obtain ⟨hmem, huser⟩ := List.mem_filter.mp hrow
  exact ⟨row, ⟨hmem, of_decide_eq_true huser⟩, rfl⟩

section Session

variable (hw : w.Calm) (htime : Monotone w.time) (requests : List Request) (hget : r.method = .get)
include hw htime hget

theorem answer_loglines {user : Int} (hplace : Place.ofTarget? r.target = some .loglines)
    (huser : callerOf r = .ok user) :
    let x := session s w requests
    (x.answer s w r).lists (x.exchanges.filterMap (Exchange.logline? user)).reverse := by
  intro x
  rw [Session.answer_get hw hget hplace rfl, Loglines.on_list huser, loglinesOf_session htime]
  exact ⟨rfl, rfl⟩

theorem answer_loglineSheets {user : Int} {segment : List Char} {data : Json} {slug : String}
    {id : Int} (hplace : Place.ofTarget? r.target = some (.loglineSheets segment))
    (huser : callerOf r = .ok user) (hsegment : slugOf segment = .ok slug)
    (hdata : data ∈ (session s w requests).exchanges.filterMap (Exchange.logline? user))
    (hslug : data.text? "slug" = some slug) (hid : data.int? "id" = some id) :
    let x := session s w requests
    (x.answer s w r).lists (x.exchanges.filterMap (Exchange.sheet? id)).reverse := by
  intro x
  obtain ⟨logline, hown, rfl⟩ := ownsLogline_of_shown requests hdata
  obtain rfl : logline.slug = slug := Option.some.inj (logline.text?_slug.symm.trans hslug)
  obtain rfl : logline.id = id := Option.some.inj (logline.int?_id.symm.trans hid)
  rw [Session.answer_get hw hget hplace rfl,
    Loglines.on_sheets (session_wellFormed requests) huser hown hsegment, sheetsOf_session htime]
  exact ⟨rfl, rfl⟩

theorem answer_planIterations {segment : List Char} {slug : String}
    (hplace : Place.ofTarget? r.target = some (.planIterations segment))
    (hsegment : slugOf segment = .ok slug) :
    let x := session s w requests
    let iterations := x.exchanges.filterMap (Exchange.iteration? slug)
    (iterations ≠ [] → (x.answer s w r).lists iterations.reverse) ∧
      (iterations = [] → (x.answer s w r).status = if holdsNul slug then 500 else 404) := by
  intro x iterations
  have hlist : (x.tables.planIterations slug).map StoryPlan.toJson = iterations.reverse :=
    planIterations_session htime requests slug
  have hempty : x.tables.planIterations slug = [] ↔ iterations = [] := by
    rw [← List.map_eq_nil_iff, hlist, List.reverse_eq_nil_iff]
  rw [Session.answer_get hw hget hplace rfl, StoryPlans.on_iterations hsegment, hlist]
  constructor
  · intro hsome
    have hrows : x.tables.planIterations slug ≠ [] := fun hnone => hsome (hempty.mp hnone)
    have hnul : holdsNul slug = false := holdsNul_of_iterations (session_wellFormed requests) hrows
    rw [if_neg (Bool.eq_false_iff.mp hnul), if_neg hrows]
    exact ⟨rfl, rfl⟩
  · intro hnone
    rw [if_pos (hempty.mpr hnone)]
    by_cases hnul : holdsNul slug = true
    · rw [if_pos hnul, if_pos hnul]
      rfl
    · rw [if_neg hnul, if_neg hnul]
      rfl

end Session

/-- **Lists are the history of what was stored.** A user's loglines, the sheets of one of them, and
the iterations of a story plan are listed as their requests were answered, each once and the latest
first. A list of iterations that would be empty is answered as unknown, or as a failure if the
tables cannot hold the text that is asked for. -/
theorem listings_history (hw : w.Calm) (htime : Monotone w.time) (requests : List Request)
    (hget : r.method = .get) :
    let x := session s w requests
    let response := x.answer s w r
    let shown (data? : Exchange → Option Json) := x.exchanges.filterMap data?
    (∀ user, Place.ofTarget? r.target = some .loglines → callerOf r = .ok user →
      response.lists (shown (Exchange.logline? user)).reverse) ∧
    (∀ user segment slug id, Place.ofTarget? r.target = some (.loglineSheets segment) →
      callerOf r = .ok user →
      slugOf segment = .ok slug →
      (∃ data ∈ shown (Exchange.logline? user), data.text? "slug" = some slug ∧
        data.int? "id" = some id) →
      response.lists (shown (Exchange.sheet? id)).reverse) ∧
    ∀ segment slug, Place.ofTarget? r.target = some (.planIterations segment) →
      slugOf segment = .ok slug →
      let iterations := shown (Exchange.iteration? slug)
      (iterations ≠ [] → response.lists iterations.reverse) ∧
      (iterations = [] → response.status = if holdsNul slug then 500 else 404) := by
  intro x response shown
  refine ⟨?_, ?_, ?_⟩
  · intro user hplace huser
    exact answer_loglines hw htime requests hget hplace huser
  · intro user segment slug id hplace huser hsegment ⟨data, hdata, hslug, hid⟩
    exact answer_loglineSheets hw htime requests hget hplace huser hsegment hdata hslug hid
  · intro segment slug hplace hsegment
    exact answer_planIterations hw htime requests hget hplace hsegment

end Responses

/-- All in one tick of the clock. A user has a logline in between those of another, and an insert
that is refused uses up a number; a sheet is renewed, and a plan is revised. -/
theorem listings_history_tick :
    let headers (user : String) : List Header :=
      [.ofText "x-user-id" user, .ofText "content-type" "application/json"]
    let requests : List Request :=
      [⟨.post, "/api/v1/loglines", headers "1", "[\"a\",\"A\",\"c\"]"⟩,
        ⟨.post, "/api/v1/loglines", headers "2", "[\"a\",\"B\",\"c\"]"⟩,
        ⟨.post, "/api/v1/loglines", headers "1", "[\"a\",\"A\",\"d\"]"⟩,
        ⟨.post, "/api/v1/story-plans", headers "2", "[\"p\",\"P\",null,[[\"k\",\"K\"]]]"⟩,
        ⟨.post, "/api/v1/beats-sheets", headers "1", "[\"a\",\"p\",[[\"k\",\"t\",\"c\"]]]"⟩,
        ⟨.put, "/api/v1/story-plans/p", headers "1", "[\"Q\",null,[[\"m\",\"M\"]]]"⟩,
        ⟨.put, "/api/v1/beats-sheets/1", headers "1", "[[[\"k\",\"u\",\"d\"]]]"⟩]
    let w : Conditions := ⟨fun _ => 0, fun _ => []⟩
    let x := session {} w requests
    let get (target : String) : Response := x.answer {} w ⟨.get, target, headers "1", ""⟩
    let shown (data? : Exchange → Option Json) := x.exchanges.filterMap data?
    let ids (items : List Json) : List (Option Int) := items.map (Json.int? "id")
    ((get "/api/v1/loglines").lists (shown (Exchange.logline? 1)).reverse ∧
        ids (shown (Exchange.logline? 1)) = [some 1, some 4]) ∧
      ((get "/api/v1/loglines/a/beats-sheets").lists (shown (Exchange.sheet? 1)).reverse ∧
        ids (shown (Exchange.sheet? 1)) = [some 1, some 2]) ∧
      ((get "/api/v1/story-plans/p/iterations").lists (shown (Exchange.iteration? "p")).reverse ∧
        ids (shown (Exchange.iteration? "p")) = [some 1, some 2]) ∧
      (get "/api/v1/story-plans/q/iterations").status = 404 := by
  intro headers requests w x get shown ids
  have hw : w.Calm := fun _ => rfl
  have hlogline : ∃ data ∈ shown (Exchange.logline? 1), data.text? "slug" = some "a" ∧
      data.int? "id" = some 1 := by
    decide +kernel
  refine ⟨⟨?_, by decide +kernel⟩, ⟨?_, by decide +kernel⟩, ⟨?_, by decide +kernel⟩, ?_⟩
  · exact (listings_history hw monotone_const requests rfl).1 1 (by decide +kernel)
      (by decide +kernel)
  · exact (listings_history hw monotone_const requests rfl).2.1 1 ['a'] "a" 1 (by decide +kernel)
      (by decide +kernel) (by decide +kernel) hlogline
  · exact ((listings_history hw monotone_const requests rfl).2.2 ['p'] "p" (by decide +kernel)
      (by decide +kernel)).1 (by decide +kernel)
  · exact ((listings_history hw monotone_const requests rfl).2.2 ['q'] "q" (by decide +kernel)
      (by decide +kernel)).2 (by decide +kernel)

/-- A slug that the tables cannot hold is not answered as unknown. -/
theorem not_unknown_iterations :
    ¬∀ (w : Conditions) (requests : List Request) (r : Request) (segment : List Char)
      (slug : String), w.Calm → Monotone w.time → r.method = .get →
      Place.ofTarget? r.target = some (.planIterations segment) → slugOf segment = .ok slug →
      (session {} w requests).exchanges.filterMap (Exchange.iteration? slug) = [] →
      ((session {} w requests).answer {} w r).status = 404 := by
  intro h
  have hstatus :=
    h ⟨fun _ => 0, fun _ => []⟩ [] ⟨.get, "/api/v1/story-plans/%00/iterations", [], ""⟩
    ['%', '0', '0'] "\x00" (fun _ => rfl) monotone_const rfl (by decide +kernel)
      (by decide +kernel) rfl
  exact absurd hstatus (by decide +kernel)

end Storyline
