import Storyline.Proofs.Outcomes
import Storyline.Proofs.Permits
import Storyline.Proofs.Traffic

/-!
# Requests that read

Without outages a request that reads is answered from the tables, as far as its queries ask for
them.

* `Prog.readOn`: the result of a program whose queries are answered from given tables, with
  `Prog.Lawful.run_readOn`;
* `Action.on`: the same for an action, with `Action.on_bind`, and `Action.Lawful.run_bind` for what
  follows;
* `serve_eq`, `serve_read`: the answer to a request, and the response to one that reads.
-/

namespace Storyline

open Http

/-- The result of a program whose queries are answered from given tables. -/
def Prog.readOn {α : Type} (t : Tables) : Prog TableStore α → α
  | .done a => a
  | .ask q k => (k (t.answer q)).readOn t

theorem Prog.readOn_bind {α β : Type} (t : Tables) (p : Prog TableStore α)
    (f : α → Prog TableStore β) :
    (p.bind f).readOn t = (f (p.readOn t)).readOn t := by
  induction p with
  | done a => rfl
  | ask q k ih => exact ih _

theorem Tables.told_answer {t : Tables} {q : Query} {result : q.Result} (hq : q.stores = false)
    (h : t.answer q = .ok result) : q.Told t result := by
  have houtcome := Database.outcome q ⟨t, 0, []⟩
  rw [show (Database.handle q ⟨t, 0, []⟩).1 = .ok result from h] at houtcome
  exact houtcome.of_reads hq

/-- **A program that may store nothing** has the result that is read from the tables. -/
theorem Prog.Lawful.run_readOn {α : Type} {permit : Query → Tables → Prop}
    {idle : α → Tables → Prop} {stored : Json → α → Prop} {K : Tables → Prop}
    {p : Prog TableStore α} {t : Tables} {w : Conditions} (h : Lawful permit idle stored K p)
    (hpermit : ∀ q, ¬permit q t) (hK : K t) (hw : w.Calm) (n : Nat) :
    (p.run (Database.under w) (t, n)).1 = p.readOn t := by
  induction h generalizing n with
  | done h => rfl
  | @read K q k hq hfail hok ihfail ihok =>
    rw [run_ask, Database.under_read hw hq, readOn]
    cases ha : t.answer q with
    | error f => exact ihfail f hK (n + 1)
    | ok result => exact ihok result ⟨hK, Tables.told_answer hq ha⟩ (n + 1)
  | store hq hallowed hfail hok ihfail => exact absurd (hallowed t hK) (hpermit _)

theorem Prog.Lawful.run_reading {α : Type} {idle : α → Tables → Prop} {stored : Json → α → Prop}
    {p : Prog TableStore α} (h : Lawful (fun _ _ => False) idle stored (fun _ => True) p)
    {w : Conditions} (hw : w.Calm) (t : Tables) (n : Nat) :
    ∃ n', p.run (Database.under w) (t, n) = (p.readOn t, t, n') := by
  have hresult := h.run_readOn (fun _ => id) (t := t) trivial hw n
  have htables : (p.run (Database.under w) (t, n)).2.1 = t := by
    rcases (h.at t).run w (s := (t, n)) with ⟨-, hsame | ⟨_, _, hp⟩, -⟩ | ⟨_, -, _, _, hp, -⟩
    · exact hsame
    · exact hp.elim
    · exact hp.elim
  exact ⟨_, Prod.ext hresult (Prod.ext htables rfl)⟩

namespace Action

variable {α β : Type}

/-- What an action ends with whose queries are answered from given tables. -/
def on (t : Tables) (x : Action α) : Except Denial α := x.run.readOn t

theorem on_bind (t : Tables) (x : Action α) (f : α → Action β) :
    (x >>= f).on t = x.on t >>= fun a => (f a).on t := by
  change (Prog.bind x.run (ExceptT.bindCont f)).readOn t = _
  rw [Prog.readOn_bind, on]
  cases x.run.readOn t with
  | error denial => rfl
  | ok a => rfl

theorem on_pure (t : Tables) (a : α) : (pure a : Action α).on t = .ok a := rfl

theorem on_check (t : Tables) (r : Except Denial α) : (check r).on t = r := rfl

theorem on_found (t : Tables) (e : Error) (a : Option α) :
    (found e a).on t = match a with | some a => .ok a | none => .error e.denial := by
  cases a <;> rfl

/-- **What follows on an action that reads** runs on the same tables. -/
theorem Lawful.run_bind {idle : α → Tables → Prop} {x : Action α}
    (h : Lawful (fun _ _ => False) idle (fun _ _ => False) (fun _ => True) x) {w : Conditions}
    (hw : w.Calm) {t : Tables} {a : α} (hx : x.on t = .ok a) (f : α → Action β) (n : Nat) :
    ∃ n', (x >>= f).run.run (Database.under w) (t, n) = (f a).run.run (Database.under w)
      (t, n') := by
  obtain ⟨n', hrun⟩ := Prog.Lawful.run_reading h hw t n
  refine ⟨n', ?_⟩
  change (Prog.bind x.run (ExceptT.bindCont f)).run (Database.under w) (t, n) = _
  rw [Prog.run_bind, hrun, show x.run.readOn t = .ok a from hx]
  rfl

theorem run_query {σ : Type} {h : Prog.Handler TableStore σ} {q : Query} {result : q.Result}
    {state state' : σ} (hq : h q state = (.ok result, state')) (f : q.Result → Action α) :
    (query q >>= f).run.run h state = (f result).run.run h state' := by
  change (ExceptT.bindCont f ((h q state).1.mapError fun f => .refused (.failure f))).run h
    (h q state).2 = _
  rw [hq]
  rfl

end Action

/-! ## The service -/

/-- A request to read something. -/
def Http.Request.reads (r : Request) : Prop := r.method = .get ∨ r.method = .head

theorem Http.Request.reads.not_writes {r : Request} (hr : r.reads) : ¬r.writes := by
  rcases hr with h | h <;> simp [writes, h]

/-- The response of an action that has ended. -/
def Http.Response.ofOutcome : Except Denial Reply → Response
  | .ok reply => { status := reply.status, body := .json reply.body }
  | .error denial => denial.response

theorem readOn_respond (t : Tables) (x : Action Reply) :
    (respond x).readOn t = .ofOutcome (x.on t) := by
  rw [respond, Prog.readOn_bind, Action.on]
  cases x.run.readOn t <;> rfl

theorem serve_eq {s : Service} {r : Request} {place : Place} {x : Action Reply}
    (hoptions : r.method ≠ .options) (hplace : Place.ofTarget? r.target = some place)
    (hx : place.action? s.policy r = some x) :
    serve s r = (respond x).bind fun response => .done (Service.sent r (s.dress r response)) := by
  rw [serve, if_neg hoptions]
  simp only [Service.answer, hplace, hx]

/-- **The response to a request that reads** is read from the tables. -/
theorem serve_read (s : Service) {r : Request} (hr : r.reads) {place : Place}
    (hplace : Place.ofTarget? r.target = some place) {x : Action Reply}
    (hx : place.read? r = some x) {w : Conditions} (hw : w.Calm) (t : Tables) (n : Nat) :
    ((serve s r).run (Database.under w) (t, n)).1 =
      Service.sent r (s.dress r (.ofOutcome (x.on t))) := by
  have hoptions : r.method ≠ .options := by
    rcases hr with h | h <;> simp [h]
  have haction : place.action? s.policy r = some x := by
    rcases hr with h | h <;> simp [Place.action?, h, hx]
  rw [(lawful_serve s r).run_readOn (fun q hp => hr.not_writes hp.writes) trivial hw n,
    serve_eq hoptions hplace haction, Prog.readOn_bind, readOn_respond]
  rfl

/-! ## Requests one after the other

A session starts from empty tables and serves one request after the other. It keeps what has been
exchanged, so that what is read later can be compared with what was answered before.

* `Exchange`, `Session`, `session`; `Session.answer`: the response that a further request would
  have;
* `Session.serve_cases`: what one request does to the tables;
* `session_induction`, `session_tables_induction`, with `session_wellFormed`;
* `session_extends`: rows stay.
-/

/-- A request with its response. -/
structure Exchange where
  request : Request
  response : Response

/-- What has been exchanged, the tables, and the number of queries so far. -/
structure Session where
  exchanges : List Exchange := []
  tables : Tables := {}
  queries : Nat := 0

namespace Session

variable (s : Service) (w : Conditions) (x : Session) (r : Request)

/-- The response to the next request. -/
def answer : Response := ((Storyline.serve s r).run (Database.under w) (x.tables, x.queries)).1

/-- The session after the next request. -/
def serve : Session :=
  let (_, tables, queries) := (Storyline.serve s r).run (Database.under w) (x.tables, x.queries)
  ⟨x.exchanges ++ [⟨r, x.answer s w r⟩], tables, queries⟩

end Session

/-- The session of requests one after the other. -/
def session (s : Service) (w : Conditions) (requests : List Request) : Session :=
  requests.foldl (fun x r => x.serve s w r) {}

section Steps

variable {s : Service} {w : Conditions}

theorem session_concat (requests : List Request) (r : Request) :
    session s w (requests ++ [r]) = (session s w requests).serve s w r := by
  rw [session, List.foldl_append]
  rfl

theorem Session.exchanges_serve (x : Session) (r : Request) :
    (x.serve s w r).exchanges = x.exchanges ++ [⟨r, x.answer s w r⟩] := rfl

/-- **What one request does to the tables.** The rows stay as they are, and then a `POST` or a `PUT`
has not succeeded; or what the request may store is added and shown. -/
theorem Session.serve_cases (x : Session) (r : Request) :
    (x.tables.SameRows (x.serve s w r).tables ∧ (r.writes → ¬(x.answer s w r).succeeds)) ∨
      ∃ t q e, x.tables.SameRows t ∧ Permits r t q ∧ q.Adds t e ∧ (x.serve s w r).tables = t.add e ∧
        r.writes ∧ (x.answer s w r).succeeds ∧ (x.answer s w r).shows e.toJson := by
  rcases ((lawful_serve s r).at x.tables).run w (s := (x.tables, x.queries)) with
    ⟨hrows, -, hidle⟩ | ⟨t, ht, q, e, hp, hadds, htables, hw, hsucceeds, hshows⟩
  · exact .inl ⟨hrows, hidle⟩
  · exact .inr ⟨t, q, e, ht, hp, hadds, htables, hw, hsucceeds, hshows⟩

/-- **What holds of the empty session and is kept by every request holds of all sessions.** -/
theorem session_induction {P : Session → Prop} (h₀ : P {}) (hserve : ∀ x r, P x → P (x.serve s w r))
    (requests : List Request) : P (session s w requests) := by
  induction requests using List.reverseRecOn with
  | nil => exact h₀
  | append_singleton requests r ih =>
    rw [session_concat]
    exact hserve _ r ih

/-- **What holds of empty tables and is kept by all that requests may store holds in all
sessions.** -/
theorem session_tables_induction {P : Tables → Prop} (h₀ : P {})
    (hrows : ∀ t t', P t → t.SameRows t' → P t') (hadd : ∀ r t t', P t → Permitted r t t' → P t')
    (requests : List Request) :
    P (session s w requests).tables := by
  refine session_induction (P := fun x => P x.tables) h₀ (fun x r h => ?_) requests
  rcases x.serve_cases r with ⟨hsame, -⟩ | ⟨t, q, e, ht, hp, hadds, htables, -⟩
  · exact hrows _ _ h hsame
  · rw [htables]
    exact hadd r t _ (hrows _ _ h ht) ⟨q, e, hp, hadds, rfl⟩

theorem session_wellFormed (requests : List Request) : (session s w requests).tables.WellFormed :=
  session_tables_induction Tables.wellFormed_empty (fun _ _ h ht => h.of_sameRows ht)
    (fun _ _ _ h ht => h.permitted ht) requests

theorem Session.extends_serve (x : Session) (r : Request) :
    x.tables.Extends (x.serve s w r).tables := by
  rcases x.serve_cases r with ⟨hsame, -⟩ | ⟨t, q, e, ht, -, hadds, htables, -⟩
  · exact hsame.extends
  · rw [htables]
    exact ht.extends.trans hadds.next.extends

theorem session_extends (before after : List Request) :
    (session s w before).tables.Extends (session s w (before ++ after)).tables := by
  induction after using List.reverseRecOn with
  | nil => rw [List.append_nil]
  | append_singleton after r ih =>
    rw [← List.append_assoc, session_concat]
    exact ih.trans (Session.extends_serve _ r)

end Steps

/-! ## Statuses of responses

* `run_serve`, `status_serve`: the response to a request is that of the action at its place;
* `Action.Ends`: what holds of every end of an action, whatever it is told;
* `Session.created_of_succeeds`: a request that creates something succeeds with one status only.
-/

/-! ### Responses -/

section Serve

variable {s : Service} {r : Request} {place : Place} {x : Action Reply} {σ : Type}

/-- **The response to a request** is that of the action at its place, which leaves behind what it
does. -/
theorem run_serve (hoptions : r.method ≠ .options) (hplace : Place.ofTarget? r.target = some place)
    (hx : place.action? s.policy r = some x) (h : Prog.Handler TableStore σ) (state : σ) :
    (serve s r).run h state =
      (Service.sent r (s.dress r (.ofOutcome (x.run.run h state).1)), (x.run.run h state).2) := by
  have hrespond :
      (respond x).run h state = (.ofOutcome (x.run.run h state).1, (x.run.run h state).2) := by
    rw [respond, Prog.run_bind]
    cases (x.run.run h state).1 <;> rfl
  rw [serve_eq hoptions hplace hx, Prog.run_bind, hrespond]
  rfl

theorem status_serve (hoptions : r.method ≠ .options)
    (hplace : Place.ofTarget? r.target = some place) (hx : place.action? s.policy r = some x)
    (h : Prog.Handler TableStore σ) (state : σ) :
    ((serve s r).run h state).1.status = (Response.ofOutcome (x.run.run h state).1).status := by
  rw [run_serve hoptions hplace hx, Service.sent_status]

end Serve

/-! ### All ends of an action -/

section Ends

variable {α β : Type}

/-- Unless it is denied, the action ends with `P`, whatever it is told. -/
def Action.Ends (P : α → Prop) (x : Action α) : Prop :=
  Prog.Ends (fun r => ∀ a, r = .ok a → P a) x.run

theorem Action.ends_pure {P : α → Prop} {a : α} (ha : P a) : (pure a : Action α).Ends P := by
  intro b hb
  rw [← Except.ok.inj hb]
  exact ha

theorem Action.ends_bind {P : β → Prop} (x : Action α) {f : α → Action β} (hf : ∀ a, (f a).Ends P) :
    (x >>= f).Ends P := by
  refine Prog.ends_bind (f := ExceptT.bindCont f) x.run fun r => ?_
  cases r with
  | error denial => exact fun b hb => nomatch hb
  | ok a => exact hf a

end Ends

/-! ### Requests that create something -/

/-- A request that creates something of its own: any `POST`, and the `PUT` of a sheet. -/
def Http.Request.Creates (r : Request) : Prop :=
  r.method = .post ∨ r.method = .put ∧ ∃ id, Place.ofTarget? r.target = some (.sheet id)

section Creates

variable {r : Request}

/-- The reply of something that has been created. -/
def Reply.IsCreated (reply : Reply) : Prop := reply.status = 201

open Storyline.Action in
theorem ends_storeSheet (logline : Logline) (plan : StoryPlan) (content : List Beat) :
    (BeatsSheets.store logline plan content).Ends Reply.IsCreated :=
  ends_bind _ fun _ => ends_bind _ fun _ => ends_pure rfl

open Storyline.Action in
theorem Place.ends_created {policy : RetryPolicy} {place : Place} {x : Action Reply}
    (hr : r.Creates) (hplace : Place.ofTarget? r.target = some place)
    (hx : place.action? policy r = some x) :
    x.Ends Reply.IsCreated := by
  unfold Place.action? at hx
  split at hx
  · next hm => simp [Request.Creates, hm] at hr
  · next hm => simp [Request.Creates, hm] at hr
  · cases hx
    exact ends_bind _ fun _ => ends_bind _ fun _ => ends_bind _ fun _ => ends_bind _ fun _ =>
      ends_pure rfl
  · cases hx
    exact ends_bind _ fun _ => ends_bind _ fun _ => ends_bind _ fun _ => ends_bind _ fun _ =>
      ends_pure rfl
  · cases hx
    exact ends_bind _ fun _ => ends_bind _ fun _ => ends_bind _ fun _ => ends_bind _ fun _ =>
      ends_storeSheet ..
  · next hm => simp [Request.Creates, hm, hplace] at hr
  · cases hx
    refine ends_bind _ fun _ => ends_bind _ fun _ => ends_bind _ fun _ => ends_bind _ fun pair => ?_
    exact ends_bind _ fun _ => ends_bind _ fun _ => ends_storeSheet ..
  · cases hx

/-- **A request that creates something succeeds with status 201.** -/
theorem Session.created_of_succeeds {s : Service} {w : Conditions} (hr : r.Creates) {x : Session}
    (hsucceeds : (x.answer s w r).succeeds) : (x.answer s w r).status = 201 := by
  have hoptions : r.method ≠ .options := by
    rcases hr with h | ⟨h, -⟩ <;> simp [h]
  unfold answer at *
  cases hplace : Place.ofTarget? r.target with
  | none =>
    refine absurd hsucceeds (Response.not_succeeds ?_)
    simp [Storyline.serve, hoptions, Service.answer, hplace, Service.sent_status]
  | some place =>
    cases hx : place.action? s.policy r with
    | none =>
      refine absurd hsucceeds (Response.not_succeeds ?_)
      simp [Storyline.serve, hoptions, Service.answer, hplace, hx, Service.sent_status]
    | some action =>
      have hend := (Place.ends_created hr hplace hx).run (Database.under w) (x.tables, x.queries)
      unfold Response.succeeds at hsucceeds
      rw [status_serve hoptions hplace hx] at hsucceeds ⊢
      cases hresult : (action.run.run (Database.under w) (x.tables, x.queries)).1 with
      | ok reply => exact hend reply hresult
      | error denial =>
        rw [hresult] at hsucceeds
        exact absurd hsucceeds (Response.not_succeeds denial.le_status)

end Creates

end Storyline
