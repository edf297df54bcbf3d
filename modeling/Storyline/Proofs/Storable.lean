import Storyline.Proofs.Admission
import Storyline.Proofs.Dangling
import Storyline.Proofs.Listings
import Storyline.Proofs.References
import Storyline.Proofs.Throughout

/-!
# Texts that are stored

What a request submits passes its checks or not, but whether a text can be stored is seen only when
it is.

* `Permits.slug_storable`: slugs that have passed their check can be stored;
* `Place.givesUp`, `serve_endsOn`: a text that is refused ends its request, as a failure of the
  service;
* **`texts_stored`**, with `not_storable`.
-/

namespace Storyline

open Http

/-! ## Slugs -/

theorem Permits.slug_storable {r : Request} {t : Tables} {q : Query} (h : Permits r t q)
    (ht : t.WellFormed) {slug : String} (hslug : q.slug? = some slug) : holdsNul slug = false := by
  cases q with
  | insertLogline d =>
    cases hslug
    exact holdsNul_of_check (h.logline_valid 0 0).slug
  | createPlan d =>
    cases hslug
    exact holdsNul_of_check (h.plan_valid 0 0).slug
  | revisePlan slug d =>
    cases hslug
    cases h with
    | iteration _ _ _ _ _ _ hplan =>
      obtain ⟨plan, hmem, rfl⟩ := hplan
      exact holdsNul_of_check (ht.plans plan hmem).slug
  | _ => cases hslug

/-! ## Texts that are refused -/

theorem Failure.IsUnstorable.status {f : Failure} (h : f.IsUnstorable) :
    (Denial.refused (.failure f)).response.status = 500 := by
  rcases h with rfl | rfl <;> rfl

theorem Failure.IsUnstorable.isDuplicate {f : Failure} (h : f.IsUnstorable) :
    f.isDuplicate = false := by
  rcases h with rfl | rfl <;> rfl

theorem Failure.IsUnstorable.status_insert {f : Failure} (h : f.IsUnstorable)
    (entity slug stored : String) (attempt : UInt32) :
    (Denial.refused
      (.creation (.insert stored attempt (insertError entity slug f)))).response.status = 500 := by
  rcases h with rfl | rfl <;> rfl

namespace Action

/-- The action ends with status 500 if a text cannot be stored. -/
abbrev Stops {α : Type} (x : Action α) : Prop :=
  x.GivesUp Failure.IsUnstorable fun denial => denial.response.status = 500

theorem stops_query (q : Query) : (query q).Stops :=
  givesUp_query fun _ => Failure.IsUnstorable.status

theorem stops_ownLogline (user : Int) (slug : String) : (ownLogline user slug).Stops :=
  (stops_query _).bind fun _ => givesUp_found _ _

theorem stops_currentPlan (slug : String) : (currentPlan slug).Stops :=
  (stops_query _).bind fun _ => givesUp_found _ _

theorem stops_ownSheet (user id : Int) : (ownSheet user id).Stops :=
  (stops_query _).bind fun _ => (givesUp_found _ _).bind fun _ =>
    (stops_query _).bind fun _ => (givesUp_found _ _).bind fun _ => givesUp_pure _

theorem stops_storeSheet (logline : Logline) (plan : StoryPlan) (content : List Beat) :
    (BeatsSheets.store logline plan content).Stops :=
  (givesUp_check _).bind fun _ => (stops_query _).bind fun _ => givesUp_pure _

theorem stops_createLogline (policy : RetryPolicy) (row : NewLogline) :
    (createLogline policy row).Stops := by
  refine givesUp_ofProg (throughout_attemptFrom loglineIntake (fun d k hk hanswers => ?_)
    (fun k hanswers => ?_) _ _ _)
  · refine ⟨fun _ f hf => ?_, fun _ => hanswers _⟩
    obtain ⟨attempt, hend⟩ := hk.failed _ (insertError_isSlugTaken.trans hf.isDuplicate)
    exact ⟨_, hend, _, rfl, hf.status_insert "Logline" d.slug d.slug attempt⟩
  · exact ⟨nofun, fun _ => hanswers _⟩

theorem stops_createStoryPlan (policy : RetryPolicy) (row : NewStoryPlan) :
    (createStoryPlan policy row).Stops := by
  refine givesUp_ofProg (throughout_attemptFrom storyPlanIntake (fun d k hk hanswers => ?_)
    (fun k hanswers => ?_) _ _ _)
  · refine ⟨fun _ f hf => ?_, fun _ => hanswers _⟩
    obtain ⟨attempt, hend⟩ := hk.failed _ (insertError_isSlugTaken.trans hf.isDuplicate)
    exact ⟨_, hend, _, rfl, hf.status_insert "StoryPlan" d.slug d.slug attempt⟩
  · exact ⟨nofun, fun _ => hanswers _⟩

end Action

open Storyline.Action

variable {r : Request}

theorem Place.stops {policy : RetryPolicy} {place : Place} {x : Action Reply} (hr : r.writes)
    (hx : place.action? policy r = some x) : x.Stops := by
  unfold Place.action? at hx
  split at hx
  · next hmethod => simp [Request.writes, hmethod] at hr
  · next hmethod => simp [Request.writes, hmethod] at hr
  · cases hx
    rw [Loglines.create_eq]
    exact (givesUp_check _).bind fun _ => (stops_createLogline policy _).bind fun _ =>
      givesUp_pure _
  · cases hx
    rw [StoryPlans.create_eq]
    exact (givesUp_check _).bind fun _ => (stops_createStoryPlan policy _).bind fun _ =>
      givesUp_pure _
  · cases hx
    exact (givesUp_check _).bind fun _ => (givesUp_check _).bind fun _ =>
      (stops_ownLogline _ _).bind fun _ =>
      (stops_currentPlan _).bind fun _ => stops_storeSheet _ _ _
  · cases hx
    exact (givesUp_check _).bind fun _ => (givesUp_check _).bind fun _ =>
      (givesUp_check _).bind fun _ =>
      (givesUp_check _).bind fun _ => (stops_currentPlan _).bind fun _ =>
        (stops_query _).bind fun _ => givesUp_pure _
  · cases hx
    exact (givesUp_check _).bind fun _ => (givesUp_check _).bind fun _ =>
      (givesUp_check _).bind fun _ =>
      (stops_ownSheet _ _).bind fun _ => (stops_query _).bind fun _ =>
        (givesUp_found _ _).bind fun _ =>
        stops_storeSheet _ _ _
  · cases hx

/-- **A text that is refused ends its request**, as a failure of the service. -/
theorem serve_stops (s : Service) (hr : r.writes) :
    (serve s r).EndsOn Failure.IsUnstorable fun response => response.status = 500 := by
  have hanswer : (s.answer r).EndsOn Failure.IsUnstorable fun response =>
      response.status = 500 := by
    unfold Service.answer
    split
    · trivial
    · split
      · trivial
      · next hx =>
        refine Prog.EndsOn.bind (Place.stops hr hx) ?_ fun outcome => ?_
        · rintro _ ⟨denial, rfl, hstatus⟩
          exact ⟨_, rfl, hstatus⟩
        · cases outcome <;> trivial
  unfold serve
  split
  · trivial
  · exact hanswer.bind (fun response hstatus => ⟨_, rfl, (s.sent_status r response).trans hstatus⟩)
      fun _ => trivial

/-! ## Texts that are stored -/

section Traffic

variable {ι : Type} [DecidableEq ι]

/-- **Every text without U+0000 is stored.** Among any requests whose queries come in any order,
without outages, a row that is about to be stored has passed all checks of its request. If none of
its texts holds U+0000, it is stored, or its slug is taken. The checks let U+0000 pass: a row with
such a text is refused for it and its request answered as a failure of the service, unless the slug
of a plan is found to be taken before. -/
theorem texts_stored (s : Service) (requests : ι → Request) {w : Conditions} (hw : w.Calm)
    (schedule : List ι) :
    let p := (traffic s requests).run (Database.under w) schedule
    ∀ i (q : Query), (p.progs i).next? = some q → q.stores = true →
      let answer := (Database.under w q p.store).1
      Permits (requests i) p.store.1 q ∧
      ((∀ text ∈ q.rowTexts, holdsNul text = false) →
        (∃ result, answer = .ok result) ∨ ∃ constraint, answer = .error (.duplicate constraint)) ∧
      ((∃ text ∈ q.rowTexts, holdsNul text = true) →
        (∃ f, answer = .error f ∧ f.IsUnstorable ∧
          ∃ response, (p.step (Database.under w) i).progs i = .done response ∧
            response.status = 500) ∨
        ∃ d, q = .createPlan d ∧ (∃ row ∈ p.store.1.reservations.rows, row.slug = d.slug) ∧
          answer = .error (.duplicate "uq_story_plan_slugs_slug")) := by
  intro p i q hnext hq answer
  obtain ⟨k, hp⟩ := Prog.next?_eq_some hnext
  have hpermits : Permits (requests i) p.store.1 q := by
    have hlawful : Pool.LawfulAt _ _ _ p := lawful_traffic schedule
    rcases hlawful i with ⟨a, ha⟩ | hi
    · cases hp.symm.trans ha
    · rw [hp] at hi
      exact hi.permitted hq
  have hwellFormed : p.store.1.WellFormed := wellFormed_tablesAfter s requests w schedule
  have hanswer : answer = (Database.handle q ⟨p.store.1, w.time p.store.2, []⟩).1 :=
    congrArg Prod.fst (Database.under_calm hw q p.store.1 p.store.2)
  have hslug : q.slug?.toList.any holdsNul = false := by
    cases hslug : q.slug? with
    | none => rfl
    | some slug => simp [hpermits.slug_storable hwellFormed hslug]
  have htexts : q.texts.any holdsNul = q.rowTexts.any holdsNul := by
    rw [Query.texts, List.any_append, hslug, Bool.false_or]
  rw [hanswer]
  refine ⟨hpermits, fun hstorable => ?_, fun hunstorable => ?_⟩
  · have hnone : q.texts.any holdsNul = false :=
      htexts.trans (List.any_eq_false.mpr (by simpa using hstorable))
    rcases Database.handle_storable hq hnone with h | ⟨constraint, h, -⟩ | ⟨constraint, h⟩
    · exact .inl h
    · exact .inr ⟨constraint, h⟩
    · exact absurd h (Database.not_dangling (hpermits.grounded hwellFormed) ⟨constraint, rfl⟩)
  · have hsome : q.texts.any holdsNul = true := htexts.trans (List.any_eq_true.mpr hunstorable)
    rcases Database.handle_unstorable hsome with ⟨f, h, hf⟩ | ⟨d, hd, htaken, h⟩
    · refine .inl ⟨f, h, hf, ?_⟩
      have hends := Pool.throughout (h := Database.under w) (p := traffic s requests) (i := i)
        (serve_stops s hpermits.writes) schedule
      change (p.progs i).Throughout _ at hends
      rw [hp] at hends
      obtain ⟨response, hk, hstatus⟩ := hends.1 hq f hf
      refine ⟨response, ?_, hstatus⟩
      simp only [Pool.step_ask hp, Function.update_self]
      exact (congrArg k (hanswer.trans h)).trans hk
    · obtain ⟨row, hrow, hslug⟩ := List.any_eq_true.mp htaken
      exact .inr ⟨d, hd, ⟨row, hrow, of_decide_eq_true hslug⟩, h⟩

/-- A logline with a mark that turns the direction of its text is stored. One with U+0000 is not,
and its request is answered as a failure of the service. -/
theorem texts_stored_logline :
    let post (name : String) : Request := ⟨.post, "/api/v1/loglines",
      [.ofText "x-user-id" "1", .ofText "content-type" "application/json"],
      "[\"hero\",\"" ++ name ++ "\",\"c\"]"⟩
    let w : Conditions := ⟨fun _ => 0, fun _ => []⟩
    let p := (traffic {} ![post "\u202e", post "\\u0000"]).run (Database.under w) []
    let q : Query := .insertLogline ⟨1, "hero", "\u202e", "c"⟩
    ((∃ result, (Database.under w q p.store).1 = .ok result) ∨
      ∃ constraint, (Database.under w q p.store).1 = .error (.duplicate constraint)) ∧
    ∃ response, (p.step (Database.under w) 1).progs 1 = .done response ∧ response.status = 500 := by
  intro post w p q
  have hstored := texts_stored {} ![post "\u202e", post "\\u0000"] (w := w) (fun _ => rfl) []
  constructor
  · exact (hstored 0 q (by decide +kernel) rfl).2.1 (by decide)
  · rcases (hstored 1 (.insertLogline ⟨1, "hero", "\x00", "c"⟩) (by decide +kernel) rfl).2.2
      (by decide) with
      ⟨f, -, -, hresponse⟩ | ⟨d, hd, -⟩
    · exact hresponse
    · cases hd

/-- So a request that passes all checks can be answered as a failure of the service, for its
text. -/
theorem not_storable :
    ¬∀ (w : Conditions) (r : Request) (row : NewLogline), w.Calm → r.method = .post →
      Place.ofTarget? r.target = some .loglines → Loglines.requested r = .ok row →
      ((serve {} r).run (Database.under w) ({}, 0)).1.status ≠ 500 := by
  intro h
  let r : Request := ⟨.post, "/api/v1/loglines",
    [.ofText "x-user-id" "1", .ofText "content-type" "application/json"],
    "[\"hero\",\"N\\u0000\",\"c\"]"⟩
  refine h ⟨fun _ => 0, fun _ => []⟩ r ⟨1, "hero", "N\x00", "c"⟩ (fun _ => rfl) rfl ?_ ?_ ?_
  · decide +kernel
  · decide +kernel
  · decide +kernel

end Traffic

end Storyline
