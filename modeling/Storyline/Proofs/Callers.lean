import Storyline.Proofs.Admission
import Storyline.Proofs.Session
import Storyline.Proofs.Throughout
import Storyline.Proofs.Variant

/-!
# Callers

Who a request comes from is read from one header. All that the service asks of the tables in a
user's name is asked in the name of that caller.

* `Http.IsShown`, `NamesUser`: the bytes of a header that can be read, and the texts that name a
  user;
* `caller_eq_ok`, `caller_eq_missing`, `caller_eq_invalid`: the three outcomes;
* `Query.user?`, `asks_serve`: in whose name the queries of a request are made;
* `serve_unknown`: the requests that are not served without a caller;
* **`callers_exact`**.
-/

namespace Storyline

open Http

/-! ## The header -/

/-- A byte of visible ASCII, a space or a tab. -/
def Http.IsShown (b : UInt8) : Prop := b.toNat = 9 ∨ 32 ≤ b.toNat ∧ b.toNat ≤ 126

/-- The characters of a value, one for each byte. -/
def Http.Octets.chars (value : Octets) : List Char := value.map fun b => Char.ofNat b.toNat

/-- The text names a user by a positive number of 63 bits: a numeral, with spaces and tabs around it
or not. -/
def NamesUser (text : List Char) (user : Int) : Prop :=
  ∃ left core right, text = left ++ core ++ right ∧ (∀ c ∈ left ++ right, c = ' ' ∨ c = '\t') ∧
    ∃ n : Nat, user = n ∧ Numeral.Spells core n ∧ 1 ≤ n ∧ n ≤ 9223372036854775807

section Header

variable {b : UInt8} {value : Octets} {text : List Char} {user : Int} {headers : List Header}

theorem isVisible_iff : isVisible b = true ↔ IsShown b := by
  simp only [isVisible, IsShown, Bool.or_eq_true, Bool.and_eq_true, decide_eq_true_eq, beq_iff_eq,
    UInt8.le_iff_toNat_le, UInt8.lt_iff_toNat_lt, ← UInt8.toNat_inj, UInt8.reduceToNat]
  omega

theorem visible?_eq_some :
    visible? value = some text ↔ (∀ b ∈ value, IsShown b) ∧ text = value.chars := by
  simp only [visible?, ← isVisible_iff, ← List.all_eq_true, Octets.chars]
  split_ifs with h
  · simp [h, eq_comm]
  · simp [h]

theorem isBlank_shown {c : Char} (hshown : ∀ b ∈ value, IsShown b) (hc : c ∈ value.chars)
    (hblank : Text.isBlank c = true) : c = ' ' ∨ c = '\t' := by
  obtain ⟨b, hb, rfl⟩ := List.mem_map.mp hc
  have hvalid : b.toNat.isValidChar := .inl (by have := b.toNat_lt; omega)
  have hnat : (Char.ofNat b.toNat).toNat = b.toNat := by
    rw [Char.ofNat, dif_pos hvalid]
    rfl
  have hb := hshown b hb
  simp only [Text.isBlank, hnat, Bool.or_eq_true, Bool.and_eq_true, decide_eq_true_eq,
    beq_iff_eq] at hblank
  unfold IsShown at hb
  obtain h | h : b.toNat = 32 ∨ b.toNat = 9 := by omega
  · exact .inl (congrArg Char.ofNat h)
  · exact .inr (congrArg Char.ofNat h)

theorem isBlank_digit {c : Char} (hc : c.isDigit = true) : Text.isBlank c = false := by
  obtain ⟨hlow, hhigh⟩ : 48 ≤ c.toNat ∧ c.toNat ≤ 57 := Char.isDigit_iff_toNat.mp hc
  simp only [Text.isBlank, Bool.or_eq_false_iff, Bool.and_eq_false_iff, decide_eq_false_iff_not,
    beq_eq_false_iff_ne]
  omega

theorem Numeral.Spells.not_blank {core : List Char} {n : Nat} (h : Spells core n) {c : Char}
    (hc : c ∈ core) : Text.isBlank c = false := by
  obtain ⟨ds, rfl | rfl, -, hd, -⟩ := h
  · exact isBlank_digit (hd c hc)
  · rcases List.mem_cons.mp hc with rfl | hc
    · rfl
    · exact isBlank_digit (hd c hc)

theorem namesUser_iff (hshown : ∀ b ∈ value, IsShown b) :
    NamesUser value.chars user ↔ 0 < user ∧ Numeral.readInt64? (Text.trim value.chars) =
      some user := by
  constructor
  · rintro ⟨left, core, right, htext, hblank, n, rfl, hn, hpos, hle⟩
    have hblank : ∀ c ∈ left ++ right, Text.isBlank c = true := by
      intro c hc
      rcases hblank c hc with rfl | rfl <;> rfl
    have hcore : Text.trim value.chars = core := by
      rw [htext]
      exact Text.trim_blanks hblank (fun c hc => hn.not_blank (List.mem_of_mem_head? hc))
        fun c hc => hn.not_blank (List.mem_of_getLast? hc)
    have huser : (0 : Int) < n := by omega
    rw [hcore, Numeral.readInt64?_pos huser]
    exact ⟨huser, n, rfl, hn, hle⟩
  · rintro ⟨huser, hread⟩
    obtain ⟨n, rfl, hn, hle⟩ := (Numeral.readInt64?_pos huser).mp hread
    obtain ⟨left, right, htext, hblank⟩ := Text.eq_trim value.chars
    refine ⟨left, Text.trim value.chars, right, htext, fun c hc => ?_, n, rfl, hn, by omega, hle⟩
    refine isBlank_shown hshown ?_ (hblank c hc)
    rw [htext]
    rcases List.mem_append.mp hc with hc | hc
    · exact List.mem_append_left _ (List.mem_append_left _ hc)
    · exact List.mem_append_right _ hc

/-! ## The three outcomes -/

/-- The error of a request whose header for the caller is missing or cannot be read. -/
def missingCaller : Error := .unauthorized "Missing x-user-id header"

/-- The error of a request whose header for the caller names none. -/
def invalidCaller : Error := .unauthorized "Invalid x-user-id header"

theorem caller_unread
    (h : ∀ value, first? headers callerHeader = some value → ∃ b ∈ value, ¬IsShown b) :
    caller headers = .error missingCaller := by
  unfold caller
  split
  · rfl
  · next text htext =>
    obtain ⟨value, hvalue, htext⟩ := Option.bind_eq_some_iff.mp htext
    obtain ⟨b, hb, hhidden⟩ := h value hvalue
    exact absurd ((visible?_eq_some.mp htext).1 b hb) hhidden

theorem caller_read (hvalue : first? headers callerHeader = some value)
    (hshown : ∀ b ∈ value, IsShown b) :
    (∃ user, NamesUser value.chars user ∧ caller headers = .ok user) ∨
      (∀ user, ¬NamesUser value.chars user) ∧ caller headers = .error invalidCaller := by
  have htext : (first? headers callerHeader).bind visible? = some value.chars :=
    Option.bind_eq_some_iff.mpr ⟨value, hvalue, visible?_eq_some.mpr ⟨hshown, rfl⟩⟩
  unfold caller
  simp only [htext, namesUser_iff hshown]
  cases Numeral.readInt64? (Text.trim value.chars) with
  | none =>
    refine .inr ⟨fun user h => ?_, rfl⟩
    cases h.2
  | some id =>
    by_cases hid : 0 < id
    · exact .inl ⟨id, ⟨hid, rfl⟩, if_pos hid⟩
    · refine .inr ⟨fun user h => ?_, if_neg hid⟩
      cases h.2
      exact hid h.1

/-- **A header names the caller** if it can be read and names a user. -/
theorem caller_eq_ok :
    caller headers = .ok user ↔ ∃ value, first? headers callerHeader = some value ∧
      (∀ b ∈ value, IsShown b) ∧ NamesUser value.chars user := by
  constructor
  · intro h
    by_cases hunread : ∀ value, first? headers callerHeader = some value → ∃ b ∈ value, ¬IsShown b
    · cases h.symm.trans (caller_unread hunread)
    · push Not at hunread
      obtain ⟨value, hvalue, hshown⟩ := hunread
      rcases caller_read hvalue hshown with ⟨user', hnames, h'⟩ | ⟨-, h'⟩
      · cases h.symm.trans h'
        exact ⟨value, hvalue, hshown, hnames⟩
      · cases h.symm.trans h'
  · rintro ⟨value, hvalue, hshown, hnames⟩
    rcases caller_read hvalue hshown with ⟨user', hnames', h⟩ | ⟨hnone, -⟩
    · cases ((namesUser_iff hshown).mp hnames).2.symm.trans ((namesUser_iff hshown).mp hnames').2
      exact h
    · exact absurd hnames (hnone user)

theorem caller_eq_missing : caller headers = .error missingCaller ↔
    ∀ value, first? headers callerHeader = some value → ∃ b ∈ value, ¬IsShown b := by
  refine ⟨fun h => ?_, caller_unread⟩
  by_contra hread
  push Not at hread
  obtain ⟨value, hvalue, hshown⟩ := hread
  rcases caller_read hvalue hshown with ⟨user, -, h'⟩ | ⟨-, h'⟩
  · cases h.symm.trans h'
  · exact absurd (Except.error.inj (h.symm.trans h')) (by decide)

theorem caller_eq_invalid : caller headers = .error invalidCaller ↔ ∃ value,
    first? headers callerHeader = some value ∧ (∀ b ∈ value, IsShown b) ∧
      ∀ user, ¬NamesUser value.chars user := by
  constructor
  · intro h
    by_cases hunread : ∀ value, first? headers callerHeader = some value → ∃ b ∈ value, ¬IsShown b
    · exact absurd (Except.error.inj (h.symm.trans (caller_unread hunread))) (by decide)
    · push Not at hunread
      obtain ⟨value, hvalue, hshown⟩ := hunread
      rcases caller_read hvalue hshown with ⟨user, -, h'⟩ | ⟨hnone, -⟩
      · cases h.symm.trans h'
      · exact ⟨value, hvalue, hshown, hnone⟩
  · rintro ⟨value, hvalue, hshown, hnone⟩
    rcases caller_read hvalue hshown with ⟨user, hnames, -⟩ | ⟨-, h⟩
    · exact absurd hnames (hnone user)
    · exact h

end Header

/-! ## Queries in the name of a user -/

/-- The user in whose name a query is made. -/
def Query.user? : Query → Option Int
  | .insertLogline d => some d.userId
  | .latestLogline user _ _ => some user
  | .loglineBySlug user _ => some user
  | .loglinesOf user => some user
  | _ => none

section Requests

open Storyline.Action

variable {r : Request}

/-- The query is made in nobody's name but the caller's. -/
def Query.IsCallers (r : Request) (q : Query) : Prop :=
  ∀ user, q.user? = some user → callerOf r = .ok user

theorem asks_callersQuery {q : Query} {user : Int} (huser : callerOf r = .ok user)
    (hq : q.user? = some user) :
    (Action.query q).Asks (Query.IsCallers r) := by
  refine asks_query fun user' huser' => ?_
  cases hq.symm.trans huser'
  exact huser

theorem asks_sharedQuery {q : Query} (hq : q.user? = none) :
    (Action.query q).Asks (Query.IsCallers r) :=
  asks_query fun user huser => by cases hq.symm.trans huser

theorem asks_ownLogline {user : Int} (huser : callerOf r = .ok user) (slug : String) :
    (ownLogline user slug).Asks (Query.IsCallers r) :=
  (asks_callersQuery huser rfl).bind fun _ => asks_found _ _

theorem asks_currentPlan (slug : String) : (currentPlan slug).Asks (Query.IsCallers r) :=
  (asks_sharedQuery rfl).bind fun _ => asks_found _ _

theorem asks_ownSheet (user id : Int) : (ownSheet user id).Asks (Query.IsCallers r) :=
  (asks_sharedQuery rfl).bind fun _ => (asks_found _ _).bind fun _ =>
    (asks_sharedQuery rfl).bind fun _ => (asks_found _ _).bind fun _ => asks_pure _

theorem asks_storeSheet (logline : Logline) (plan : StoryPlan) (content : List Beat) :
    (BeatsSheets.store logline plan content).Asks (Query.IsCallers r) :=
  asks_check fun _ _ => (asks_sharedQuery rfl).bind fun _ => asks_pure _

/-- The call stores a logline of the user, or looks among the user's own. -/
def CandidateCall.IsOf (user : Int) : CandidateCall NewLogline → Prop
  | .insert d => d.userId = user
  | .latest _ scope _ => scope = .user user

theorem asks_createLogline (policy : RetryPolicy) {row : NewLogline}
    (huser : callerOf r = .ok row.userId) :
    (Action.createLogline policy row).Asks (Query.IsCallers r) := by
  refine asks_ofProg (Prog.Asks.interpret (P := CandidateCall.IsOf row.userId) ?_
    fun call hcall => ?_)
  · exact asks_attemptFrom (P := CandidateCall.IsOf row.userId) (fun d => d.userId = row.userId)
      (fun _ => id) rfl
      (fun _ _ => id) _ _ rfl
  · cases call with
    | insert d =>
      have hd : callerOf r = .ok d.userId := hcall ▸ huser
      exact ⟨fun user huser' => Option.some.inj huser' ▸ hd, fun _ => trivial⟩
    | latest base scope order =>
      cases hcall
      exact ⟨fun user huser' => Option.some.inj huser' ▸ huser, fun _ => trivial⟩

theorem asks_createStoryPlan (policy : RetryPolicy) (row : NewStoryPlan) :
    (Action.createStoryPlan policy row).Asks (Query.IsCallers r) := by
  refine asks_ofProg (Prog.Asks.interpret (P := fun _ => True) ?_ fun call _ => ?_)
  · exact asks_attemptFrom (fun _ => True) (fun _ => id) trivial (fun _ _ => id) _ _ trivial
  · cases call <;> exact ⟨nofun, fun _ => trivial⟩

theorem Place.asks_read {place : Place} {x : Action Reply} (hx : place.read? r = some x) :
    x.Asks (Query.IsCallers r) := by
  cases place with
  | health =>
    cases hx
    exact ⟨nofun, fun _ => trivial⟩
  | loglines =>
    cases hx
    exact asks_check fun _ huser => (asks_callersQuery huser rfl).bind fun _ => asks_pure _
  | logline slug =>
    cases hx
    exact asks_check fun _ huser => asks_check fun _ _ => (asks_ownLogline huser _).bind fun _ =>
      asks_pure _
  | loglineSheets slug =>
    cases hx
    exact asks_check fun _ huser => asks_check fun _ _ => (asks_ownLogline huser _).bind fun _ =>
      (asks_sharedQuery rfl).bind fun _ => asks_pure _
  | plans =>
    cases hx
    exact (asks_sharedQuery rfl).bind fun _ => asks_pure _
  | plan slug =>
    cases hx
    exact asks_check fun _ _ => (asks_currentPlan _).bind fun _ => asks_pure _
  | planIterations slug =>
    cases hx
    refine asks_check fun _ _ => (asks_sharedQuery rfl).bind fun rows => ?_
    split <;> trivial
  | sheets => cases hx
  | sheet id =>
    cases hx
    exact asks_check fun _ _ => asks_check fun _ _ => (asks_ownSheet _ _).bind fun _ => asks_pure _

theorem Loglines.requested_caller {row : NewLogline} (h : Loglines.requested r = .ok row) :
    callerOf r = .ok row.userId := by
  obtain ⟨user, huser, h⟩ := bind_eq_ok.mp h
  obtain ⟨input, -, h⟩ := bind_eq_ok.mp h
  obtain ⟨-, -, h⟩ := bind_eq_ok.mp (mapError_eq_ok.mp h)
  obtain ⟨slug, -, h⟩ := bind_eq_ok.mp h
  cases h
  exact huser

/-- **In a user's name** the tables are asked by that user's requests only. -/
theorem Place.asks {policy : RetryPolicy} {place : Place} {x : Action Reply}
    (hx : place.action? policy r = some x) : x.Asks (Query.IsCallers r) := by
  unfold Place.action? at hx
  split at hx
  · exact asks_read hx
  · exact asks_read hx
  · cases hx
    rw [Loglines.create_eq]
    exact asks_check fun _ hrow =>
      (asks_createLogline policy (Loglines.requested_caller hrow)).bind fun _ =>
      asks_pure _
  · cases hx
    rw [StoryPlans.create_eq]
    exact asks_check fun _ _ => (asks_createStoryPlan policy _).bind fun _ => asks_pure _
  · cases hx
    exact asks_check fun _ huser => asks_check fun _ _ => (asks_ownLogline huser _).bind fun _ =>
      (asks_currentPlan _).bind fun _ => asks_storeSheet _ _ _
  · cases hx
    exact asks_check fun _ _ => asks_check fun _ _ => asks_check fun _ _ => asks_check fun _ _ =>
      (asks_currentPlan _).bind fun _ => (asks_sharedQuery rfl).bind fun _ => asks_pure _
  · cases hx
    exact asks_check fun _ _ => asks_check fun _ _ => asks_check fun _ _ =>
      (asks_ownSheet _ _).bind fun _ =>
      (asks_sharedQuery rfl).bind fun _ => (asks_found _ _).bind fun _ => asks_storeSheet _ _ _
  · cases hx

theorem asks_serve (s : Service) (r : Request) : (serve s r).Asks (Query.IsCallers r) := by
  unfold serve
  split
  · trivial
  · refine Prog.Asks.bind ?_ fun _ => trivial
    unfold Service.answer
    split
    · trivial
    · split
      · trivial
      · next hx =>
        refine Prog.Asks.bind (Place.asks hx) fun outcome => ?_
        cases outcome <;> trivial

/-! ## Requests without a caller -/

theorem run_unknown {policy : RetryPolicy} {place : Place} {x : Action Reply} {denial : Denial}
    (hx : place.action? policy r = some x) (hown : r.writes ∨ place.isPersonal = true)
    (hcaller : callerOf r = .error denial) : x.run = .done (.error denial) := by
  have hcheck {α : Type} (f : Int → Action α) : (check (callerOf r) >>= f).run =
      .done (.error denial) := by
    rw [hcaller]
    rfl
  have hread {place : Place} (hx : place.read? r = some x) (hplace : place.isPersonal = true) :
      x.run = .done (.error denial) := by
    cases place <;> first | (cases hx; exact hcheck _) | cases hplace
  unfold Place.action? at hx
  split at hx
  · next hmethod => exact hread hx (hown.resolve_left (by simp [Http.Request.writes, hmethod]))
  · next hmethod => exact hread hx (hown.resolve_left (by simp [Http.Request.writes, hmethod]))
  all_goals cases hx
  all_goals exact hcheck _

/-- **A request without a caller** is answered with status 401 at once, where one is needed. -/
theorem serve_unknown {s : Service} {place : Place} {x : Action Reply} {e : Error}
    (hplace : Place.ofTarget? r.target = some place) (hx : place.action? s.policy r = some x)
    (hown : r.writes ∨ place.isPersonal = true) (hcaller : caller r.headers = .error e) :
    ∃ response, serve s r = .done response ∧ response.status = 401 := by
  have hoptions : r.method ≠ .options := by
    intro hmethod
    simp [Place.action?, hmethod] at hx
  have hrun : x.run = .done (.error e.denial) :=
    run_unknown hx hown (mapError_eq_error.mpr ⟨e, hcaller, rfl⟩)
  refine ⟨Service.sent r (s.dress r e.denial.response), ?_, ?_⟩
  · rw [serve_eq hoptions hplace hx, respond, hrun]
    rfl
  · rw [Service.sent_status]
    exact e.status_answer.trans (congrArg ErrorKind.status (caller_error hcaller))

end Requests

/-! ## The caller -/

/-- **The caller is read exactly.** A request has the caller that the first header for it names: a
numeral from 1 to the largest number of 63 bits, with blanks around it or not. The header counts as
missing if there is none or it holds other bytes than visible ones, and as invalid in all other
cases. The tables are asked in nobody's name but the caller's, and where a caller is needed, a
request without one is refused before they are asked anything. -/
theorem callers_exact :
    (∀ headers user, caller headers = .ok user ↔ ∃ value, first? headers "x-user-id" = some value ∧
      (∀ b ∈ value, IsShown b) ∧ NamesUser value.chars user) ∧
    (∀ headers, caller headers = .error (.unauthorized "Missing x-user-id header") ↔
      ∀ value, first? headers "x-user-id" = some value → ∃ b ∈ value, ¬IsShown b) ∧
    (∀ headers, caller headers = .error (.unauthorized "Invalid x-user-id header") ↔
      ∃ value, first? headers "x-user-id" = some value ∧ (∀ b ∈ value, IsShown b) ∧
        ∀ user, ¬NamesUser value.chars user) ∧
    (∀ (s : Service) (r : Request), (serve s r).Asks fun q : Query => ∀ user, q.user? = some user →
      caller r.headers = .ok user ∧ 1 ≤ user ∧ user ≤ 9223372036854775807) ∧
    (∀ (s : Service) (r : Request) (place : Place) (x : Action Reply) (e : Error),
      Place.ofTarget? r.target = some place → place.action? s.policy r = some x →
      r.writes ∨ place.isPersonal = true → caller r.headers = .error e →
      ∃ response, serve s r = .done response ∧ response.status = 401) := by
  refine ⟨fun _ _ => caller_eq_ok, fun _ => caller_eq_missing, fun _ => caller_eq_invalid,
    fun s r => ?_, fun _ _ _ _ _ => serve_unknown⟩
  refine (asks_serve s r).imp fun (q : Query) hq user huser => ?_
  have hcaller : caller r.headers = .ok user := mapError_eq_ok.mp (hq user huser)
  obtain ⟨value, -, -, left, core, right, -, -, n, rfl, -, hpos, hle⟩ := caller_eq_ok.mp hcaller
  exact ⟨hcaller, by omega, by omega⟩

-- a space, a plus, two digits and a tab
example : caller [⟨"x-user-id", [32, 43, 48, 55, 9]⟩] = .ok 7 := by rfl

end Storyline
