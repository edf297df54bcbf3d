import Storyline.Proofs.Lawful
import Storyline.Proofs.Rules
import Storyline.Service.Serve

/-!
# What a request may store

* `Request.writes`, `Place.isPersonal`: requests to store something, and places where a caller reads
  what is his own;
* `Permits`: what a request may store, in view of the tables at that time;
* `lawful_serve`: the service stores only what the request may store, answers with success and the
  row if it has stored one, and never answers a `POST` or a `PUT` with success otherwise.
-/

namespace Storyline

open Http

/-- A request to store something. -/
def Http.Request.writes (r : Request) : Prop := r.method = .post ∨ r.method = .put

/-- What is read at the place is the caller's own. -/
def Place.isPersonal : Place → Bool
  | loglines | logline _ | loglineSheets _ | sheet _ => true
  | _ => false

/-- The status of success. -/
def Http.Response.succeeds (response : Response) : Prop :=
  200 ≤ response.status ∧ response.status < 300

/-- The response shows a row. -/
def Http.Response.shows (response : Response) (json : Json) : Prop :=
  response.body = .json (.obj [("data", json)])

/-- What a request may store, where the tables are `t`. -/
inductive Permits (r : Request) (t : Tables) : Query → Prop
  /-- A logline of the caller, with the texts of the body. -/
  | logline {user : Int} {input : LoglineInput} {wanted d : NewLogline} (hmethod : r.method = .post)
      (hplace : Place.ofTarget? r.target = some .loglines) (huser : callerOf r = .ok user)
      (hinput : bodyOf LoglineInput.reader r = .ok input)
      (haccept : Loglines.accept user input = .ok wanted) (hd : Renamed wanted d) :
      Permits r t (.insertLogline d)
  /-- A story plan with the texts and the beats of the body. -/
  | plan {user : Int} {input : StoryPlanInput} {wanted d : NewStoryPlan}
      (hmethod : r.method = .post) (hplace : Place.ofTarget? r.target = some .plans)
      (huser : callerOf r = .ok user) (hinput : bodyOf StoryPlanInput.reader r = .ok input)
      (haccept : StoryPlans.accept input = .ok wanted) (hd : Renamed wanted d) :
      Permits r t (.createPlan d)
  /-- A further iteration of the slug in the path, which has one already. -/
  | iteration {user : Int} {segment : List Char} {slug : String} {d : StoryPlanRevision}
      (hmethod : r.method = .put) (hplace : Place.ofTarget? r.target = some (.plan segment))
      (huser : callerOf r = .ok user) (hslug : slugOf segment = .ok slug)
      (hinput : bodyOf StoryPlanRevision.reader r = .ok d)
      (haccept : StoryPlans.checkRevision d = .ok ())
      (hplan : ∃ plan ∈ t.plans.rows, plan.slug = slug) : Permits r t (.revisePlan slug d)
  /-- A sheet for a logline of the caller, after an iteration of the slug in the body. -/
  | sheet {user : Int} {input : BeatsSheetInput} {logline : Logline} {plan : StoryPlan}
      (hmethod : r.method = .post) (hplace : Place.ofTarget? r.target = some .sheets)
      (huser : callerOf r = .ok user) (hinput : bodyOf BeatsSheetInput.reader r = .ok input)
      (hlogline : logline ∈ t.loglines.rows ∧ logline.userId = user ∧
        logline.slug = input.loglineSlug)
      (hplan : plan ∈ t.plans.rows ∧ plan.slug = input.storyPlanSlug)
      (hcontent : checkContent input.content plan.beats = .ok ()) :
      Permits r t (.insertSheet ⟨logline.id, plan.id, input.content⟩)
  /-- A sheet for the logline and the iteration of the sheet in the path, a logline of the
  caller. -/
  | renewal {user id : Int} {segment : List Char} {input : ContentInput} {previous : BeatsSheet}
      {logline : Logline} {plan : StoryPlan} (hmethod : r.method = .put)
      (hplace : Place.ofTarget? r.target = some (.sheet segment)) (huser : callerOf r = .ok user)
      (hid : idOf segment = .ok id) (hinput : bodyOf ContentInput.reader r = .ok input)
      (hprevious : previous ∈ t.sheets.rows ∧ previous.id = id)
      (hlogline : logline ∈ t.loglines.rows ∧ logline.id = previous.loglineId ∧
        logline.userId = user)
      (hplan : plan ∈ t.plans.rows ∧ plan.id = previous.storyPlanId)
      (hcontent : checkContent input.content plan.beats = .ok ()) :
      Permits r t (.insertSheet ⟨logline.id, plan.id, input.content⟩)

theorem Permits.writes {r : Request} {t : Tables} {q : Query} (h : Permits r t q) : r.writes := by
  cases h with
  | logline hmethod => exact .inl hmethod
  | plan hmethod => exact .inl hmethod
  | iteration hmethod => exact .inr hmethod
  | sheet hmethod => exact .inl hmethod
  | renewal hmethod => exact .inr hmethod

/-! ## Rows that are looked up -/

section Lookups

open Storyline.Action

variable {K : Tables → Prop} {permit : Query → Tables → Prop}

theorem lawful_ownLogline (user : Int) (slug : String) {stored : Json → Logline → Prop} :
    Action.Lawful permit
      (fun row t => K t ∧ row ∈ t.loglines.rows ∧ row.userId = user ∧ row.slug = slug) stored K
      (ownLogline user slug) := by
  refine (lawful_query rfl).bind_idle fun found => ?_
  exact (lawful_found _ found).imp fun row t h => ⟨h.1.1, h.1.2 row h.2⟩

theorem lawful_currentPlan (slug : String) {stored : Json → StoryPlan → Prop} :
    Action.Lawful permit (fun row t => K t ∧ row ∈ t.plans.rows ∧ row.slug = slug) stored K
      (currentPlan slug) := by
  refine (lawful_query rfl).bind_idle fun found => ?_
  exact (lawful_found _ found).imp fun row t h => ⟨h.1.1, h.1.2 row h.2⟩

theorem lawful_ownSheet (user id : Int) {stored : Json → BeatsSheet × Logline → Prop} :
    Action.Lawful permit (fun pair t => K t ∧ (pair.1 ∈ t.sheets.rows ∧ pair.1.id = id) ∧
      pair.2 ∈ t.loglines.rows ∧ pair.2.id = pair.1.loglineId ∧ pair.2.userId = user) stored K
      (ownSheet user id) := by
  refine (lawful_query rfl).bind_idle fun sheet? => ?_
  refine (lawful_found _ sheet?).bind_idle fun sheet => ?_
  refine (lawful_query rfl).bind_idle fun logline? => ?_
  refine (lawful_found _ _).bind_idle fun logline => ?_
  refine lawful_pure fun t ⟨⟨⟨⟨hK, hsheet⟩, hfound⟩, hlogline⟩, hown⟩ => ?_
  obtain ⟨hown, huser⟩ := Option.filter_eq_some_iff.mp hown
  obtain ⟨hmem, hid⟩ := hlogline logline hown
  exact ⟨hK, hsheet sheet hfound, hmem, hid, of_decide_eq_true huser⟩

end Lookups

/-! ## Requests that store -/

/-- The reply tells of success and shows a row. -/
def Reply.shows (json : Json) (reply : Reply) : Prop :=
  (200 ≤ reply.status ∧ reply.status < 300) ∧ reply.body = .obj [("data", json)]

section Writes

open Storyline.Action

variable {r : Request} {K : Tables → Prop}

/-- The action of a request that stores: without a denial it has stored what the request may store
and shows it. -/
abbrev LawfulWrite (r : Request) (K : Tables → Prop) (x : Action Reply) : Prop :=
  Action.Lawful (fun q t => Permits r t q) (fun _ _ => False) Reply.shows K x

theorem lawful_reply {ε : Type} {x : Action ε} {shown : ε → Json} {status : Nat}
    (hx : Action.Lawful (fun q t => Permits r t q) (fun _ _ => False) (fun json row =>
      json = shown row) K x)
    (hstatus : 200 ≤ status ∧ status < 300) :
    LawfulWrite r K (x >>= fun row => pure (Reply.data status (shown row))) := by
  refine hx.bind (fun row => lawful_pure fun _ => False.elim) fun json row hjson => ?_
  rw [hjson]
  exact ⟨_, rfl, hstatus, rfl⟩

theorem lawful_createLoglines (policy : RetryPolicy) (hmethod : r.method = .post)
    (hplace : Place.ofTarget? r.target = some .loglines) :
    LawfulWrite r K (Loglines.create policy r) := by
  refine (lawful_check _).bind_idle fun user => ?_
  refine (lawful_check _).bind_idle fun input => ?_
  refine (lawful_check _).bind_idle fun wanted => ?_
  refine lawful_reply (lawful_createLogline policy fun d hd t h => ?_) (by decide)
  obtain ⟨⟨⟨-, huser⟩, hinput⟩, haccept⟩ := h
  exact .logline hmethod hplace huser hinput (mapError_eq_ok.mp haccept) hd

theorem lawful_createStoryPlans (policy : RetryPolicy) (hmethod : r.method = .post)
    (hplace : Place.ofTarget? r.target = some .plans) :
    LawfulWrite r K (StoryPlans.create policy r) := by
  refine (lawful_check _).bind_idle fun user => ?_
  refine (lawful_check _).bind_idle fun input => ?_
  refine (lawful_check _).bind_idle fun wanted => ?_
  refine lawful_reply (lawful_createStoryPlan policy fun d hd t h => ?_) (by decide)
  obtain ⟨⟨⟨-, huser⟩, hinput⟩, haccept⟩ := h
  exact .plan hmethod hplace huser hinput (mapError_eq_ok.mp haccept) hd

theorem lawful_revise {segment : List Char} (hmethod : r.method = .put)
    (hplace : Place.ofTarget? r.target = some (.plan segment)) :
    LawfulWrite r K (StoryPlans.revise segment r) := by
  refine (lawful_check _).bind_idle fun user => ?_
  refine (lawful_check _).bind_idle fun slug => ?_
  refine (lawful_check _).bind_idle fun d => ?_
  refine (lawful_check _).bind_idle fun _ => ?_
  refine (lawful_currentPlan slug).bind_idle fun current => ?_
  refine lawful_reply (lawful_store rfl fun t h => ?_) (by decide)
  obtain ⟨⟨⟨⟨⟨-, huser⟩, hslug⟩, hinput⟩, haccept⟩, hplan⟩ := h
  exact .iteration hmethod hplace huser hslug hinput (mapError_eq_ok.mp haccept) ⟨current, hplan⟩

theorem lawful_storeSheet {logline : Logline} {plan : StoryPlan} {content : List Beat}
    (hpermit : checkContent content plan.beats = .ok () → ∀ t, K t →
      Permits r t (.insertSheet ⟨logline.id, plan.id, content⟩)) :
    LawfulWrite r K (BeatsSheets.store logline plan content) := by
  refine (lawful_check _).bind_idle fun _ => ?_
  refine lawful_reply (lawful_store rfl fun t h => ?_) (by decide)
  exact hpermit (mapError_eq_ok.mp h.2) t h.1

theorem lawful_createSheet (hmethod : r.method = .post)
    (hplace : Place.ofTarget? r.target = some .sheets) :
    LawfulWrite r K (BeatsSheets.create r) := by
  refine (lawful_check _).bind_idle fun user => ?_
  refine (lawful_check _).bind_idle fun input => ?_
  refine (lawful_ownLogline user _).bind_idle fun logline => ?_
  refine (lawful_currentPlan _).bind_idle fun plan => ?_
  refine lawful_storeSheet fun hcontent t h => ?_
  obtain ⟨⟨⟨⟨-, huser⟩, hinput⟩, hlogline⟩, hplan⟩ := h
  exact .sheet hmethod hplace huser hinput hlogline hplan hcontent

theorem lawful_renewSheet {segment : List Char} (hmethod : r.method = .put)
    (hplace : Place.ofTarget? r.target = some (.sheet segment)) :
    LawfulWrite r K (BeatsSheets.renew segment r) := by
  refine (lawful_check _).bind_idle fun user => ?_
  refine (lawful_check _).bind_idle fun id => ?_
  refine (lawful_check _).bind_idle fun input => ?_
  refine (lawful_ownSheet user id).bind_idle fun pair => ?_
  obtain ⟨previous, logline⟩ := pair
  refine (lawful_query rfl).bind_idle fun plan? => ?_
  refine (lawful_found _ plan?).bind_idle fun plan => ?_
  refine lawful_storeSheet fun hcontent t h => ?_
  obtain ⟨⟨⟨⟨⟨⟨-, huser⟩, hid⟩, hinput⟩, hprevious, hlogline⟩, htold⟩, hplan⟩ := h
  exact .renewal hmethod hplace huser hid hinput hprevious hlogline (htold plan hplan) hcontent

end Writes

/-! ## Requests that read -/

section Reads

open Storyline.Action

variable {permit : Query → Tables → Prop} {r : Request} {K : Tables → Prop}

/-- The action of a request that reads: it stores nothing. -/
abbrev LawfulRead (permit : Query → Tables → Prop) (K : Tables → Prop) (x : Action Reply) : Prop :=
  Action.Lawful permit (fun _ _ => True) (fun _ _ => False) K x

theorem lawful_answer (reply : Reply) : LawfulRead permit K (pure reply) :=
  lawful_pure fun _ _ => trivial

theorem lawful_read {place : Place} {x : Action Reply} (h : place.read? r = some x) :
    LawfulRead permit K x := by
  cases place with
  | health =>
    cases h
    exact .read rfl (fun _ => .done fun _ _ _ _ => trivial) fun _ => .done fun _ _ _ _ => trivial
  | loglines =>
    cases h
    exact (lawful_check _).bind_idle fun _ => (lawful_query rfl).bind_idle fun _ => lawful_answer _
  | logline slug =>
    cases h
    exact (lawful_check _).bind_idle fun _ => (lawful_check _).bind_idle fun _ =>
      (lawful_ownLogline _ _).bind_idle fun _ => lawful_answer _
  | loglineSheets slug =>
    cases h
    exact (lawful_check _).bind_idle fun _ => (lawful_check _).bind_idle fun _ =>
      (lawful_ownLogline _ _).bind_idle fun _ => (lawful_query rfl).bind_idle fun _ =>
        lawful_answer _
  | plans =>
    cases h
    exact (lawful_query rfl).bind_idle fun _ => lawful_answer _
  | plan slug =>
    cases h
    exact (lawful_check _).bind_idle fun _ => (lawful_currentPlan _).bind_idle fun _ =>
      lawful_answer _
  | planIterations slug =>
    cases h
    refine (lawful_check _).bind_idle fun _ => (lawful_query rfl).bind_idle fun rows => ?_
    split
    · exact lawful_fail _
    · exact lawful_answer _
  | sheets => cases h
  | sheet id =>
    cases h
    refine (lawful_check _).bind_idle fun _ => (lawful_check _).bind_idle fun _ => ?_
    exact (lawful_ownSheet _ _).bind_idle fun _ => lawful_answer _

end Reads

/-! ## The service -/

theorem Refusal.le_status (refusal : Refusal) : 400 ≤ refusal.answer.status := by
  have herror : ∀ e : Error, 400 ≤ e.answer.status := by
    intro e
    cases e <;> simp [Error.answer, RefusalAnswer.internal]
  cases refusal with
  | error e => exact herror e
  | creation e => exact herror e.cause
  | failure f =>
    cases f with
    | refused code constraint message =>
      simp only [answer, Failure.answer]
      split <;> simp [RefusalAnswer.internal]
    | _ => simp [answer, Failure.answer, RefusalAnswer.internal]
  | badRequest message => simp [answer]

theorem Rejection.le_status (rejection : Rejection) : 400 ≤ rejection.status := by
  cases rejection <;> simp [status]

theorem Http.Response.not_succeeds {response : Response} (h : 400 ≤ response.status) :
    ¬response.succeeds := by
  intro hs
  have := hs.2
  omega

theorem Denial.le_status (denial : Denial) : 400 ≤ denial.response.status := by
  cases denial with
  | refused refusal => exact refusal.le_status
  | rejected rejection => exact rejection.le_status

theorem Service.sent_status (s : Service) (r : Request) (response : Response) :
    (Service.sent r (s.dress r response)).status = response.status := by
  unfold Service.sent
  split <;> rfl

theorem Service.sent_body (s : Service) {r : Request} (hr : r.writes) (response : Response) :
    (Service.sent r (s.dress r response)).body = response.body := by
  unfold Service.sent
  split
  · next hm => simp [Request.writes, hm] at hr
  · rfl

section Serve

variable {permit : Query → Tables → Prop} {r : Request} {K : Tables → Prop}

/-- A program that answers a request: a `POST` or a `PUT` succeeds only where a row has been stored,
and then the row is shown. -/
abbrev LawfulAnswer (r : Request) (K : Tables → Prop) (p : Prog TableStore Response) : Prop :=
  Prog.Lawful (fun q t => Permits r t q) (fun response _ => r.writes → ¬response.succeeds)
    (fun json response => r.writes ∧ response.succeeds ∧ response.shows json) K p

theorem lawful_respond {idle : Reply → Tables → Prop} {stored : Json → Reply → Prop}
    {x : Action Reply} (hx : Action.Lawful (fun q t => Permits r t q) idle stored K x)
    (hidle : ∀ reply t, idle reply t → ¬r.writes)
    (hstored : ∀ json reply, stored json reply → r.writes ∧ reply.shows json) :
    LawfulAnswer r K (respond x) := by
  refine Prog.Lawful.bind hx (fun answer => ?_) fun json answer => ?_
  · cases answer with
    | error denial => exact .done fun _ _ _ => Response.not_succeeds denial.le_status
    | ok reply => exact .done fun t ht hw => absurd hw (hidle reply t (ht reply rfl))
  · rintro ⟨reply, rfl, hreply⟩
    obtain ⟨hw, hstatus, hbody⟩ := hstored json reply hreply
    exact ⟨_, rfl, hw, hstatus, congrArg Body.json hbody⟩

theorem lawful_action {s : Service} {place : Place} {x : Action Reply}
    (hplace : Place.ofTarget? r.target = some place) (hx : place.action? s.policy r = some x) :
    LawfulAnswer r K (respond x) := by
  have hwrite : ∀ {y : Action Reply}, r.writes → LawfulWrite r K y → LawfulAnswer r K (respond y) :=
    fun hw hy => lawful_respond hy (fun _ _ => False.elim) fun _ _ hshows => ⟨hw, hshows⟩
  have hread : ¬r.writes → place.read? r = some x → LawfulAnswer r K (respond x) :=
    fun hw hx => lawful_respond (lawful_read hx) (fun _ _ _ => hw) fun _ _ => False.elim
  unfold Place.action? at hx
  split at hx
  · next hm => exact hread (by simp [Request.writes, hm]) hx
  · next hm => exact hread (by simp [Request.writes, hm]) hx
  · next hm =>
    cases hx
    exact hwrite (.inl hm) (lawful_createLoglines s.policy hm hplace)
  · next hm =>
    cases hx
    exact hwrite (.inl hm) (lawful_createStoryPlans s.policy hm hplace)
  · next hm =>
    cases hx
    exact hwrite (.inl hm) (lawful_createSheet hm hplace)
  · next hm =>
    cases hx
    exact hwrite (.inr hm) (lawful_revise hm hplace)
  · next hm =>
    cases hx
    exact hwrite (.inr hm) (lawful_renewSheet hm hplace)
  · cases hx

/-- **The service stores only what a request may store.** -/
theorem lawful_serve (s : Service) (r : Request) : LawfulAnswer r (fun _ => True) (serve s r) := by
  unfold serve
  split
  · next hm => exact .done fun _ _ hw => by simp [Request.writes, hm] at hw
  · have hanswer : LawfulAnswer r (fun _ => True) (s.answer r) := by
      unfold Service.answer
      split
      · exact .done fun _ _ _ => Response.not_succeeds (by simp)
      · next place hplace =>
        split
        · exact .done fun _ _ _ => Response.not_succeeds (by simp)
        · next x hx => exact lawful_action hplace hx
    refine hanswer.bind (fun response => .done fun t h hw => ?_) fun json response h => ⟨_, rfl, ?_⟩
    · unfold Response.succeeds
      rw [s.sent_status]
      exact h hw
    · unfold Response.succeeds Response.shows
      rw [s.sent_status, s.sent_body h.1]
      exact h

end Serve

end Storyline
