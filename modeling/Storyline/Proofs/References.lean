import Storyline.Proofs.Dangling
import Storyline.Proofs.Denials
import Storyline.Proofs.Traffic

/-!
# Programs amid others

Between two queries of a program the tables grow, and what the program has read may be old by then.
It can still rely on the rows that it has seen, and on what holds of the tables at all times.

* `Prog.EndsAmid`: how a program ends, however the tables grow meanwhile, with `Prog.EndsAmid.bind`;
* `Action.EndsAmid`: the same for an action, with a rule for each of its steps;
* `traffic_endsAmid`: requests side by side end as they do amid any growth of the tables.
-/

namespace Storyline

open Http

variable {inv : Tables → Prop} {t t' : Tables}

namespace Prog

variable {α β : Type}

/-- The program ends with `P`, as long as the tables keep `inv` and all their rows while it runs. -/
def EndsAmid (inv : Tables → Prop) (P : α → Tables → Prop) : Prog TableStore α → Tables → Prop
  | .done a, t => P a t
  | .ask q k, t => ∀ db : Database, t.Extends db.tables → inv db.tables →
      (k (Database.handle q db).1).EndsAmid inv P (Database.handle q db).2.tables

theorem endsAmid_of_forall {P : α → Tables → Prop} (h : ∀ a t, P a t) (p : Prog TableStore α)
    (t : Tables) :
    p.EndsAmid inv P t := by
  induction p generalizing t with
  | done a => exact h a t
  | ask q k ih => exact fun db _ _ => ih _ _

theorem EndsAmid.mono {P : α → Prop} {p : Prog TableStore α} (h : p.EndsAmid inv (fun a _ => P a) t)
    (ht : t.Extends t') : p.EndsAmid inv (fun a _ => P a) t' := by
  cases p with
  | done a => exact h
  | ask q k => exact fun db hdb => h db (ht.trans hdb)

theorem EndsAmid.bind {P : α → Tables → Prop} {Q : β → Tables → Prop} {p : Prog TableStore α}
    {f : α → Prog TableStore β} (h : p.EndsAmid inv P t)
    (hf : ∀ a t', t.Extends t' → P a t' → (f a).EndsAmid inv Q t') :
    (p.bind f).EndsAmid inv Q t := by
  induction p generalizing t with
  | done a => exact hf a t (.refl t) h
  | ask q k ih =>
    intro db hdb hinv
    exact ih _ (h db hdb hinv) fun a t' ht' =>
      hf a t' (hdb.trans ((Database.outcome q db).extends.trans ht'))

end Prog

/-! ## Actions -/

namespace Action

variable {α β : Type} {D : Denial → Prop} {P : α → Tables → Prop}

/-- Amid others the action ends with `P`, or it is denied with `D`. -/
def EndsAmid (inv : Tables → Prop) (D : Denial → Prop) (P : α → Tables → Prop) (x : Action α)
    (t : Tables) :
    Prop :=
  Prog.EndsAmid inv (fun r t => match r with | .ok a => P a t | .error denial => D denial) x.run t

theorem EndsAmid.bind {Q : β → Tables → Prop} {x : Action α} {f : α → Action β}
    (h : x.EndsAmid inv D P t) (hf : ∀ a t', t.Extends t' → P a t' → (f a).EndsAmid inv D Q t') :
    (x >>= f).EndsAmid inv D Q t := by
  refine Prog.EndsAmid.bind (f := ExceptT.bindCont f) h fun r t' ht' hr => ?_
  cases r with
  | error denial => exact hr
  | ok a => exact hf a t' ht' hr

theorem endsAmid_pure {a : α} (h : P a t) : (pure a : Action α).EndsAmid inv D P t := h

theorem endsAmid_check {r : Except Denial α} (hdenied : ∀ denial, r = .error denial → D denial) :
    (check r).EndsAmid inv D (fun a _ => r = .ok a) t := by
  cases r with
  | error denial => exact hdenied denial rfl
  | ok a => exact endsAmid_pure rfl

theorem endsAmid_found {e : Error} {o : Option α} (hdenied : o = none → D e.denial) :
    (found e o).EndsAmid inv D (fun a _ => o = some a) t := by
  cases o with
  | none => exact hdenied rfl
  | some a => exact endsAmid_pure rfl

theorem endsAmid_query {q : Query} {P : q.Result → Tables → Prop}
    (hdenied : ∀ f, D (.refused (.failure f)))
    (h : ∀ db db' result, t.Extends db.tables → inv db.tables →
      Database.handle q db = (.ok result, db') → P result db'.tables)
    :
    (query q).EndsAmid inv D P t := by
  intro db hdb hinv
  cases hq : Database.handle q db with
  | mk answer db' =>
    cases answer with
    | error f => exact hdenied f
    | ok result => exact h db db' result hdb hinv hq

theorem endsAmid_any {q : Query} (hdenied : ∀ f, D (.refused (.failure f))) :
    (query q).EndsAmid inv D (fun _ _ => True) t :=
  endsAmid_query hdenied fun _ _ _ _ _ _ => trivial

end Action

/-! ## Requests side by side -/

section Traffic

variable {ι : Type} [DecidableEq ι] {s : Service} {requests : ι → Request} {w : Conditions}

/-- **Requests side by side** end as they do amid any growth of the tables that keeps what holds at
all times. -/
theorem traffic_endsAmid {P : ι → Response → Prop}
    (hinv : ∀ schedule, inv (tablesAfter s requests w schedule))
    (h : ∀ i, (serve s (requests i)).EndsAmid inv (fun response _ => P i response) {})
    (schedule : List ι) (i : ι) :
    (((traffic s requests).run (Database.under w) schedule).progs i).EndsAmid inv (fun response _ =>
      P i response)
      (tablesAfter s requests w schedule) := by
  induction schedule using List.reverseRecOn generalizing i with
  | nil => exact h i
  | append_singleton past j ih =>
    have hlater := (ih i).mono (traffic_extends past [j])
    have hj := ih j
    simp only [tablesAfter, Pool.run_concat] at hlater hj ⊢
    generalize hpast : (traffic s requests).run (Database.under w) past = p at hlater hj ⊢
    have hnow : inv p.store.1 := hpast ▸ hinv past
    cases hp : p.progs j with
    | done response => rwa [Pool.step_done hp] at hlater ⊢
    | ask q k =>
      rw [Pool.step_ask hp] at hlater ⊢
      by_cases hij : i = j
      · subst hij
        rw [hp] at hj
        simp only [Function.update_self]
        exact hj ⟨p.store.1, w.time p.store.2, w.outages p.store.2⟩ (.refl _) hnow
      · simpa only [Function.update_of_ne hij] using hlater

end Traffic

end Storyline

/-! ## References between rows

Sheets refer to their loglines and to iterations of plans, and iterations to reserved slugs. A
request reads a row first and refers to it later, when other requests have been at the tables.

* `Http.Response.MissesPlan`: the answer that the plan of a sheet is gone, with `serve_endsAmid`: a
  renewal is not answered in this way;
* **`traffic_references`**: no request meets a reference that leads nowhere.
-/

namespace Storyline

open Http

/-! ### Plans of sheets -/

/-- A request to store a further sheet in place of an earlier one. -/
def Http.Request.Renews (r : Request) : Prop :=
  r.method = .put ∧ ∃ segment, Place.ofTarget? r.target = some (.sheet segment)

/-- The response tells that there is no iteration of some number. -/
def Http.Response.MissesPlan (response : Response) : Prop :=
  response.status = 404 ∧ ∃ id, response.body = .json (Error.unknownId "StoryPlan" id).answer.toJson

theorem RefusalAnswer.message_of_toJson {a b : RefusalAnswer} (h : a.toJson = b.toJson) :
    a.message = b.message := by
  simp only [toJson, Json.obj.injEq, List.cons.injEq, Prod.mk.injEq, Json.str.injEq, true_and,
    and_true] at h
  exact h.2

theorem unknownId_initial (entity : String) (id : Int) {c : Char}
    (h : entity.toList.head? = some c) :
    (Error.unknownId entity id).answer.message.toList.head? = some c :=
  initial_append _ (initial_append _ (initial_append _ h))

theorem missesPlan_initial {denial : Denial} (h : denial.response.MissesPlan) :
    ∃ refusal, denial = .refused refusal ∧ refusal.answer.status = 404 ∧
      refusal.answer.message.toList.head? = some 'S' := by
  obtain ⟨hstatus, id, hbody⟩ := h
  cases denial with
  | rejected r => cases hbody
  | refused refusal =>
    have hmessage := RefusalAnswer.message_of_toJson (Body.json.inj hbody)
    refine ⟨refusal, rfl, hstatus, ?_⟩
    rw [hmessage]
    exact unknownId_initial "StoryPlan" id (by decide)

theorem Denial.Early.not_missesPlan {denial : Denial} (h : denial.Early) :
    ¬denial.response.MissesPlan := by
  rintro ⟨hstatus, -⟩
  rw [Denial.Early, hstatus] at h
  exact absurd h (by decide)

theorem failure_not_missesPlan (f : Failure) :
    ¬(Denial.refused (.failure f)).response.MissesPlan := by
  intro h
  obtain ⟨_, heq, hstatus, hhead⟩ := missesPlan_initial h
  cases heq
  cases f with
  | noRow => exact absurd hhead (by decide)
  | closed => exact absurd hstatus (by decide)
  | other message => cases hstatus
  | refused code constraint message =>
    simp only [Refusal.answer, Failure.answer] at hstatus
    split at hstatus <;> cases hstatus

theorem unknownSheet_not_missesPlan (id : Int) :
    ¬(Error.unknownId "BeatsSheet" id).denial.response.MissesPlan := by
  intro h
  obtain ⟨_, heq, -, hhead⟩ := missesPlan_initial h
  cases heq
  have hinitial := unknownId_initial "BeatsSheet" id (c := 'B') (by decide)
  exact absurd (hinitial.symm.trans hhead) (by decide)

section Renewals

open Storyline.Action

variable {inv : Tables → Prop} {t : Tables}

theorem endsAmid_ownSheet (user id : Int) :
    (ownSheet user id).EndsAmid inv (fun denial => ¬denial.response.MissesPlan)
      (fun pair t => pair.1 ∈ t.sheets.rows) t := by
  refine (endsAmid_query (P := fun found t => ∀ row, found = some row → row ∈ t.sheets.rows)
    failure_not_missesPlan fun db db' found _ _ hq => ?_).bind fun found t₁ _ hfound => ?_
  · have houtcome := Database.outcome (.sheetById id) db
    rw [hq] at houtcome
    rw [houtcome.of_not_stores rfl]
    exact fun row hrow => (houtcome.of_reads rfl row hrow).1
  refine (endsAmid_found fun _ => unknownSheet_not_missesPlan id).bind fun sheet t₂ ht₂ hsheet => ?_
  refine (endsAmid_any failure_not_missesPlan).bind fun logline? t₃ ht₃ _ => ?_
  refine (endsAmid_found fun _ => unknownSheet_not_missesPlan id).bind fun logline t₄ ht₄ _ => ?_
  exact endsAmid_pure ((ht₂.trans (ht₃.trans ht₄)).sheets.mem (hfound sheet hsheet))

theorem endsAmid_store (logline : Logline) (plan : StoryPlan) (content : List Beat) :
    (BeatsSheets.store logline plan content).EndsAmid inv (fun denial =>
      ¬denial.response.MissesPlan)
      (fun reply _ => reply.status = 201) t := by
  refine (endsAmid_check fun _ h => (checkContent_early h).not_missesPlan).bind fun _ _ _ _ => ?_
  refine (endsAmid_any failure_not_missesPlan).bind fun _ _ _ _ => ?_
  exact endsAmid_pure rfl

/-- A sheet that has been found keeps its iteration, so that it is found as well. -/
theorem endsAmid_renew (segment : List Char) (r : Request) :
    (BeatsSheets.renew segment r).EndsAmid Tables.SheetsFollow
      (fun denial => ¬denial.response.MissesPlan) (fun reply _ => reply.status = 201) t := by
  refine (endsAmid_check fun _ h => (callerOf_early h).not_missesPlan).bind fun user _ _ _ => ?_
  refine (endsAmid_check fun _ h => (idOf_early h).not_missesPlan).bind fun id _ _ _ => ?_
  refine (endsAmid_check fun _ h => (bodyOf_early h).not_missesPlan).bind fun input _ _ _ => ?_
  refine (endsAmid_ownSheet user id).bind fun pair t₁ _ hsheet => ?_
  refine (endsAmid_query (P := fun (found : Option StoryPlan) _ => found.isSome)
    failure_not_missesPlan
    fun db db' found hdb hinv hq => ?_).bind fun plan? t₂ _ hfound => ?_
  · obtain ⟨plan, hplan, hid, -⟩ := hinv pair.1 (hdb.sheets.mem hsheet)
    have hread : db.read .planById [] (fun t => t.plan? pair.1.storyPlanId) = (.ok found, db') := hq
    have hanswer : db.tables.plan? pair.1.storyPlanId = found :=
      Except.ok.inj (Prod.mk.inj (Database.execute_ok hread)).1
    rw [← hanswer]
    exact List.find?_isSome.mpr ⟨plan, hplan, decide_eq_true hid⟩
  refine (endsAmid_found fun hnone => ?_).bind fun plan _ _ _ =>
    endsAmid_store pair.2 plan input.content
  rw [hnone] at hfound
  cases hfound

/-- **A renewal never misses its plan**, whatever other requests do meanwhile. -/
theorem serve_endsAmid (s : Service) {r : Request} (hr : r.Renews) :
    (serve s r).EndsAmid Tables.SheetsFollow (fun response _ => ¬response.MissesPlan) t := by
  obtain ⟨hmethod, segment, hplace⟩ := hr
  have haction : (Place.sheet segment).action? s.policy r = some (BeatsSheets.renew segment r) := by
    simp [Place.action?, hmethod]
  rw [serve_eq (by simp [hmethod]) hplace haction]
  have hrespond : (respond (BeatsSheets.renew segment r)).EndsAmid Tables.SheetsFollow
      (fun response _ => ¬response.MissesPlan) t := by
    refine Prog.EndsAmid.bind (endsAmid_renew segment r) fun outcome t' _ h => ?_
    cases outcome with
    | ok reply => exact fun hmisses => absurd (h.symm.trans hmisses.1) (by decide)
    | error denial => exact h
  refine hrespond.bind fun response t' _ h => ?_
  have hsent : (Service.sent r (s.dress r response)).MissesPlan ↔ response.MissesPlan := by
    rw [Response.MissesPlan, Response.MissesPlan, s.sent_status, s.sent_body (.inr hmethod)]
  exact mt hsent.mp h

end Renewals

/-! ### Requests side by side -/

/-- The call that a program makes next. -/
def Prog.next? {I : Interface} {α : Type} : Prog I α → Option I.Call
  | .done _ => none
  | .ask c _ => some c

theorem Prog.next?_eq_some {I : Interface} {α : Type} {p : Prog I α} {c : I.Call}
    (h : p.next? = some c) :
    ∃ k, p = .ask c k := by
  cases p with
  | done a => cases h
  | ask c' k =>
    cases h
    exact ⟨k, rfl⟩

theorem Prog.LawfulAt.permitted {permit : Query → Tables → Prop} {α : Type}
    {idle : α → Tables → Prop} {stored : Json → α → Prop} {t : Tables} {q : Query}
    {k : Except Failure q.Result → Prog TableStore α} (h : LawfulAt permit idle stored t (.ask q k))
    (hq : q.stores = true) : permit q t := by
  obtain ⟨K, h, hK⟩ := h
  cases h with
  | read hread hfail hok => cases hread.symm.trans hq
  | store _ hpermit hfail hok => exact hpermit t (hK t (.refl t))

theorem Query.grounded_of_reads {q : Query} (hq : q.stores = false) (t : Tables) :
    q.Grounded t := by
  cases q with
  | revisePlan slug d | insertSheet d => cases hq
  | _ => trivial

section Traffic

variable {ι : Type} [DecidableEq ι]

theorem sheetsFollow_tablesAfter (s : Service) (requests : ι → Request) (w : Conditions)
    (schedule : List ι) :
    (tablesAfter s requests w schedule).SheetsFollow :=
  traffic_induction nofun (fun _ _ h ht => h.of_sameRows ht) (fun _ _ _ h ht =>
    h.permitted ht) schedule

/-- **No reference leads nowhere.** Among any requests whose queries come in any order, with any
failures, every query refers to rows that are in the tables when it comes, and is not refused for a
row that it refers to. No `PUT` of a sheet is answered that its plan is not found, and no request at
all is denied because loglines were looked up without their user. -/
theorem traffic_references (s : Service) (requests : ι → Request) (w : Conditions)
    (schedule : List ι) :
    let p := (traffic s requests).run (Database.under w) schedule
    (∀ i q, (p.progs i).next? = some q → q.Grounded p.store.1 ∧
      ∀ constraint, (Database.under w q p.store).1 ≠ .error (.dangling constraint)) ∧
    (∀ i response, (requests i).Renews → p.progs i = .done response → ¬response.MissesPlan) ∧
    ∀ i place x, Place.ofTarget? (requests i).target = some place →
      place.action? s.policy (requests i) = some x →
      x.Denies Denial.Scoped := by
  intro p
  refine ⟨fun i q hnext => ?_, fun i response hr hp => ?_, fun i place x _ hx => Place.denies hx⟩
  · obtain ⟨k, hp⟩ := Prog.next?_eq_some hnext
    have hgrounded : q.Grounded p.store.1 := by
      cases hq : q.stores with
      | false => exact q.grounded_of_reads hq _
      | true =>
        have hlawful : Pool.LawfulAt _ _ _ p := lawful_traffic schedule
        rcases hlawful i with ⟨a, ha⟩ | hi
        · cases hp.symm.trans ha
        · rw [hp] at hi
          exact (hi.permitted hq).grounded (wellFormed_tablesAfter s requests w schedule)
    let db : Database := ⟨p.store.1, w.time p.store.2, w.outages p.store.2⟩
    have hdb : q.Grounded db.tables := hgrounded
    exact ⟨hgrounded, fun constraint => Database.not_dangling hdb ⟨constraint, rfl⟩⟩
  · have hserve : ∀ i, (serve s (requests i)).EndsAmid Tables.SheetsFollow
        (fun response _ => (requests i).Renews → ¬response.MissesPlan) {} := by
      intro i
      by_cases hi : (requests i).Renews
      · simpa only [hi, true_imp_iff] using serve_endsAmid s hi
      · exact Prog.endsAmid_of_forall (fun _ _ h => absurd h hi) _ _
    have hend := traffic_endsAmid (P := fun i response => (requests i).Renews →
      ¬response.MissesPlan)
      (sheetsFollow_tablesAfter s requests w) hserve schedule i
    rw [hp] at hend
    exact hend hr

/-- Requests of one user: a logline, a plan, a sheet, a revision of the plan, and a renewal of the
sheet. -/
def renewalRace : Fin 5 → Request :=
  let headers := [.ofText "x-user-id" "1", .ofText "content-type" "application/json"]
  ![sheetRace 0, sheetRace 1, sheetRace 2, sheetRace 3,
    ⟨.put, "/api/v1/beats-sheets/1", headers, "[[[\"k\",\"t\",\"d\"]]]"⟩]

/-- The plan is revised while the renewal is under way, which is stored for the iteration of its
sheet. -/
theorem traffic_references_renewal :
    let w : Conditions := ⟨fun _ => 0, fun _ => []⟩
    let at? (schedule : List (Fin 5)) := (traffic {} renewalRace).run (Database.under w) schedule
    let p := at? [0, 1, 2, 2, 2, 4, 4, 4, 3, 3]
    let q : Query := .insertSheet ⟨1, 1, [⟨"k", "t", "d"⟩]⟩
    let ended := at? [0, 1, 2, 2, 2, 4, 4, 4, 3, 3, 4]
    (p.progs 4).next? = some q ∧ q.Grounded p.store.1 ∧ p.store.1.plans.rows.length = 2 ∧
      (renewalRace 4).Renews ∧ ∃ response, ended.progs 4 = .done response ∧ response.status = 201 ∧
        ¬response.MissesPlan := by
  intro w at? p q ended
  have hnext : (p.progs 4).next? = some q := by decide +kernel
  have hrenews : (renewalRace 4).Renews := ⟨rfl, "1".toList, by decide +kernel⟩
  have hended :
      (match ended.progs 4 with
        | .done response => response.status
        | .ask _ _ => 0) = 201 := by
    decide +kernel
  refine ⟨hnext, ((traffic_references {} renewalRace w _).1 4 q hnext).1, by decide +kernel,
    hrenews, ?_⟩
  cases hresponse : ended.progs 4 with
  | ask c k =>
    rw [hresponse] at hended
    cases hended
  | done response =>
    rw [hresponse] at hended
    exact ⟨response, rfl, hended,
      (traffic_references {} renewalRace w _).2.1 4 response hrenews hresponse⟩

end Traffic

end Storyline
