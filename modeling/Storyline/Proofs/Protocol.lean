import Storyline.Proofs.Attempts
import Storyline.Proofs.Standstill
import Storyline.Registry
import Storyline.Settings
import Storyline.Store.Row

/-!
# The calls of a creation

A creation takes turns with its store: an insert, a lookup if the slug is taken, the next insert.
Which calls it makes depends on nothing but the answers, and those may be any.

* `Prog.Asked`, `Prog.log`: the calls of a run, each with its answer;
* `LawfulCandidate`: a candidate under another slug differs in its slug only;
* `Turns`: the calls and the end of a creation, by the number of the attempt;
* **`create_turns`**: every creation takes its turns in this way, whatever the store.
-/

namespace Storyline

/-! ## The calls of a run -/

namespace Prog

variable {I : Interface} {α σ : Type}

/-- A call with the answer that it got. -/
structure Asked (I : Interface) where
  call : I.Call
  answer : I.Answer call

/-- The calls of a run, the first one first. -/
def log (h : Handler I σ) : Prog I α → σ → List (Asked I)
  | .done _, _ => []
  | .ask c k, s => ⟨c, (h c s).1⟩ :: log h (k (h c s).1) (h c s).2

@[simp] theorem log_done (h : Handler I σ) (a : α) (s : σ) : (done a : Prog I α).log h s = [] := rfl

@[simp] theorem log_ask (h : Handler I σ) (c : I.Call) (k : I.Answer c → Prog I α) (s : σ) :
    (ask c k).log h s = ⟨c, (h c s).1⟩ :: (k (h c s).1).log h (h c s).2 := rfl

end Prog

/-! ## Candidates under other slugs -/

/-- Under another slug, a candidate keeps everything but its slug. -/
class LawfulCandidate (κ : Type) [Candidate κ] : Prop where
  slug_withSlug : ∀ (d : κ) (slug : String), Candidate.slug (Candidate.withSlug d slug) = slug
  withSlug_slug : ∀ d : κ, Candidate.withSlug d (Candidate.slug d) = d
  withSlug_withSlug : ∀ (d : κ) (slug slug' : String),
    Candidate.withSlug (Candidate.withSlug d slug) slug' = Candidate.withSlug d slug'

instance : LawfulCandidate Registry.Entry := ⟨fun _ _ => rfl, fun _ => rfl, fun _ _ _ => rfl⟩

instance : LawfulCandidate NewLogline := ⟨fun _ _ => rfl, fun _ => rfl, fun _ _ _ => rfl⟩

instance : LawfulCandidate NewStoryPlan := ⟨fun _ _ => rfl, fun _ => rfl, fun _ _ _ => rfl⟩

/-! ## Taking turns -/

theorem nextNumber_pos {base : String} {latest : Option String} {n : UInt32}
    (h : nextNumber base latest = .ok n) : 1 ≤ n.toNat := by
  cases latest with
  | none =>
    cases Except.ok.inj h
    decide
  | some slug =>
    obtain ⟨m, -, hn⟩ := nextNumber_some h
    omega

open Prog (Asked)

section Turns

variable {κ ε : Type} [Candidate κ]

/-- The calls and the end of a creation of `d`, from the given attempt on, at which `candidate` is
stored. Inserts and lookups take turns: call `2 * i` is the insert and call `2 * i + 1` the lookup
of the `i`-th of these attempts, counted from 0. -/
structure Turns (d : κ) (order : VariantOrder) (retries attempt : Nat) (candidate : κ)
    (calls : List (Asked (CandidateStore κ ε))) (result : Except CreationError ε) : Prop where
  /-- The first call stores the candidate. -/
  first : ∃ answer, calls[0]? = some ⟨.insert candidate, answer⟩
  /-- There is a lookup only after a taken slug, while attempts are left. It is for the slug asked
  for first. -/
  lookup : ∀ {i asked}, calls[2 * i + 1]? = some asked →
    asked.call = .latest (Candidate.slug d) (Candidate.scope d) order ∧ i < retries ∧
      ∃ stored e, calls[2 * i]? = some ⟨.insert stored, .error e⟩ ∧ e.isSlugTaken
  /-- A further insert stores the candidate under the variant after the one that was looked up. -/
  insert : ∀ {i asked}, calls[2 * (i + 1)]? = some asked →
    ∃ latest next, calls[2 * i + 1]? =
        some ⟨.latest (Candidate.slug d) (Candidate.scope d) order, .ok latest⟩ ∧
      nextVariant (Candidate.slug d) latest = .ok next ∧
      ∃ stored, asked.call = .insert stored ∧ stored = Candidate.withSlug d next.slug ∧
        Candidate.slug stored = Slug.variant (Candidate.slug d) next.number ∧
          1 ≤ next.number.toNat ∧
        Slug.check (Candidate.slug stored) = .ok () ∧ (Candidate.slug stored).utf8ByteSize ≤
          Slug.maxBytes
  /-- The creation ends with the answer to its last insert, which tells of a taken slug only if no
  attempt is left, or with the variant that could not be found after its last lookup. -/
  ends :
    (∃ i stored answer number, calls.length = 2 * i + 1 ∧
      calls[2 * i]? = some ⟨.insert stored, answer⟩ ∧
      result = answer.mapError (.insert (Candidate.slug stored) number) ∧
        number.toNat = attempt + i ∧
      ∀ e, answer = .error e → e.isSlugTaken → i = retries) ∨
    ∃ i answer cause, calls.length = 2 * (i + 1) ∧
      calls[2 * i + 1]? = some ⟨.latest (Candidate.slug d) (Candidate.scope d) order, answer⟩ ∧
      answer.bind (nextVariant (Candidate.slug d)) = .error cause ∧
      result = .error (.resolve (Candidate.slug d) cause)

namespace Turns

variable {d c : κ} {order : VariantOrder} {retries attempt : Nat}
  {calls : List (Asked (CandidateStore κ ε))} {result : Except CreationError ε}

theorem of_insert (answer : Except Error ε) {number : UInt32} (hnumber : number.toNat = attempt)
    (hlast : ∀ e, answer = .error e → e.isSlugTaken → retries = 0) :
    Turns d order retries attempt c [⟨.insert c, answer⟩]
      (answer.mapError (.insert (Candidate.slug c) number)) where
  first := ⟨answer, rfl⟩
  lookup h := nomatch h
  insert h := nomatch h
  ends := .inl ⟨0, c, answer, number, rfl, rfl, rfl, hnumber, fun e he htaken =>
    (hlast e he htaken).symm⟩

theorem of_lookup {e cause : Error} {answer : Except Error (Option String)} (htaken : e.isSlugTaken)
    (hcause : answer.bind (nextVariant (Candidate.slug d)) = .error cause) :
    Turns (ε := ε) d order (retries + 1) attempt c
      [⟨.insert c, .error e⟩, ⟨.latest (Candidate.slug d) (Candidate.scope d) order, answer⟩]
      (.error (.resolve (Candidate.slug d) cause)) where
  first := ⟨.error e, rfl⟩
  lookup {i asked} h := by
    cases i with
    | zero =>
      cases Option.some.inj h
      exact ⟨rfl, Nat.succ_pos _, c, e, rfl, htaken⟩
    | succ i => nomatch h
  insert h := nomatch h
  ends := .inr ⟨0, answer, cause, rfl, rfl, hcause, rfl⟩

theorem of_next [LawfulCandidate κ] {e : Error} {latest : Option String} {next : NumberedSlug}
    (htaken : e.isSlugTaken) (hnext : nextVariant (Candidate.slug d) latest = .ok next)
    (h : Turns d order retries (attempt + 1) (Candidate.withSlug d next.slug) calls result) :
    Turns d order (retries + 1) attempt c
      (⟨.insert c, .error e⟩ :: ⟨.latest (Candidate.slug d) (Candidate.scope d) order,
        .ok latest⟩ :: calls)
      result where
  first := ⟨.error e, rfl⟩
  lookup {i asked} hasked := by
    cases i with
    | zero =>
      cases Option.some.inj hasked
      exact ⟨rfl, Nat.succ_pos _, c, e, rfl, htaken⟩
    | succ i =>
      obtain ⟨hcall, hlt, hinsert⟩ := h.lookup (i := i) hasked
      exact ⟨hcall, Nat.succ_lt_succ hlt, hinsert⟩
  insert {i asked} hasked := by
    cases i with
    | zero =>
      obtain ⟨answer, hfirst⟩ := h.first
      cases Option.some.inj (hasked.symm.trans hfirst)
      obtain ⟨hnumber, hslug, hcheck⟩ := nextVariant_ok hnext
      have hstored := LawfulCandidate.slug_withSlug d next.slug
      refine ⟨latest, next, rfl, hnext, _, rfl, rfl, hstored.trans hslug,
        nextNumber_pos hnumber, ?_, ?_⟩
      · rw [hstored, hcheck]
      · rw [hstored]
        exact (Slug.check_eq_ok.mp hcheck).2
    | succ i => exact h.insert (i := i) hasked
  ends := by
    rcases h.ends with ⟨i, stored, answer, number, hlen, hcall, hresult, hnumber, hlast⟩ |
      ⟨i, answer, cause, hlen, hcall, hcause, hresult⟩
    · refine .inl ⟨i + 1, stored, answer, number, ?_, hcall, hresult, ?_, fun e he htaken => ?_⟩
      · rw [List.length_cons, List.length_cons, hlen, Nat.mul_succ]
      · rw [hnumber]
        omega
      · rw [hlast e he htaken]
    · refine .inr ⟨i + 1, answer, cause, ?_, hcall, hcause, hresult⟩
      rw [List.length_cons, List.length_cons, hlen]
      omega

theorem length_le (h : Turns d order retries attempt c calls result) :
    calls.length ≤ 2 * retries + 1 := by
  by_contra hlen
  have hget : calls[2 * retries + 1]? = some calls[2 * retries + 1] :=
    List.getElem?_eq_getElem (by omega)
  exact absurd (h.lookup hget).2.1 (Nat.lt_irrefl _)

end Turns

end Turns

/-! ## Every creation takes turns -/

section Creations

variable {κ ε σ : Type} [Candidate κ] [LawfulCandidate κ]

/-- A creation takes turns from any attempt on, as long as its attempts can be counted. -/
theorem attemptFrom_turns (h : Prog.Handler (CandidateStore κ ε) σ) (d : κ) (order : VariantOrder)
    {retries : Nat} {attempt : UInt32} (hsize : attempt.toNat + retries < UInt32.size) {c : κ}
    (hc : ∀ slug, Candidate.withSlug c slug = Candidate.withSlug d slug) (s : σ) :
    let p : Prog (CandidateStore κ ε) _ :=
      attemptFrom (Candidate.slug d) (Candidate.scope d) order retries attempt c
    Turns d order retries attempt.toNat c (p.log h s) (p.run h s).1 := by
  -- on the retries that are left; the candidate is `d` itself or `d` under the variant found last
  induction retries generalizing attempt c s with
  | zero =>
    intro p
    simp only [p, attemptFrom_eq, Prog.log_ask, Prog.run_ask]
    cases hanswer : (h (.insert c) s).1 with
    | ok entity => exact Turns.of_insert (.ok entity) rfl fun _ _ _ => rfl
    | error e => exact Turns.of_insert (.error e) rfl fun _ _ _ => rfl
  | succ retries ih =>
    intro p
    simp only [p, attemptFrom_eq, Prog.log_ask, Prog.run_ask]
    cases hanswer : (h (.insert c) s).1 with
    | ok entity => exact Turns.of_insert (.ok entity) rfl nofun
    | error e =>
      simp only [afterInsert]
      split_ifs with htaken
      · simp only [Prog.log_ask, Prog.run_ask]
        generalize h (.latest (Candidate.slug d) (Candidate.scope d) order) _ = answered
        obtain ⟨answer, s'⟩ := answered
        dsimp only
        cases hnext : answer.bind (nextVariant (Candidate.slug d)) with
        | error cause =>
          rw [afterLookup_error _ _ _ _ _ _ hnext]
          exact Turns.of_lookup htaken hnext
        | ok next =>
          obtain ⟨latest, rfl, -⟩ := bind_nextVariant_ok hnext
          have hlt : attempt.toNat + 1 < UInt32.size := by omega
          have hattempt : (attempt + 1).toNat = attempt.toNat + 1 := toNat_succ_attempt hlt
          rw [afterLookup_ok _ _ _ _ hlt _ hnext, hc next.slug]
          refine Turns.of_next htaken hnext ?_
          rw [← hattempt]
          exact ih (by omega) (LawfulCandidate.withSlug_withSlug d next.slug) s'
      · exact Turns.of_insert (.error e) rfl fun e' he htaken' =>
          absurd (Except.error.inj he ▸ htaken') htaken

/-- **A creation takes turns with every store.** Whatever the store answers at each call, the first
insert is of the candidate itself; a lookup follows an insert that finds the slug taken, while
retries are left, and the insert after it stores the candidate under the variant that is next by the
answer. The last call decides how the creation ends. -/
theorem create_turns (h : Prog.Handler (CandidateStore κ ε) σ) (s : σ) (policy : RetryPolicy)
    (hretries : policy.retries.toNat + 1 < UInt32.size) (d : κ) :
    let p : Prog (CandidateStore κ ε) _ := create policy d
    Turns d policy.order policy.retries.toNat 1 d (p.log h s) (p.run h s).1 := by
  have hsize : (1 : UInt32).toNat + policy.retries.toNat < UInt32.size := by
    rw [Nat.add_comm]
    exact hretries
  exact attemptFrom_turns h d policy.order hsize (fun _ => rfl) s

/-- A slug that is taken but not shown is proposed at each of three retries, and refused. -/
theorem create_turns_hidden :
    let r : Registry := { rows := [⟨"hero", .user 1⟩], hidden := ["hero-1"] }
    let d : Registry.Entry := ⟨"hero", .user 1⟩
    let p : Prog (CandidateStore Registry.Entry Registry.Entity) _ := create ⟨3, .newest⟩ d
    (3 : UInt32).toNat + 1 < UInt32.size ∧
      Turns d .newest 3 1 d (p.log Registry.handle r) (p.run Registry.handle r).1 ∧
      (p.log Registry.handle r).length = 7 ∧
      (p.run Registry.handle r).1 =
        .error (.insert "hero-1" 4 (.slugTaken "TestEntity" "hero-1")) :=
  ⟨by decide, create_turns Registry.handle _ ⟨3, .newest⟩ (by decide) _, by decide +kernel,
    by decide +kernel⟩

end Creations

/-! ## Counting attempts

A creation ends with every store, for its attempts are bounded by its policy. Their numbers have 32
bits, though, and the largest bound allows one attempt more than there are numbers: a creation comes
to it in a store that goes on refusing.

* `insertsIn`, `lookupsIn`: the calls of each kind;
* `GoesOn`: the calls after which a creation goes on;
* **`create_counted`**: how many calls a creation makes, and when it cannot count its attempts;
* `Registry.attempts_overflow`: a creation that cannot.
-/

section Counting

variable {κ ε σ : Type}

/-! ### The calls of a creation -/

/-- The call stores a candidate. -/
def CandidateCall.isInsert : CandidateCall κ → Bool
  | insert _ => true
  | latest _ _ _ => false

/-- The number of inserts. -/
def insertsIn (calls : List (Asked (CandidateStore κ ε))) : Nat := calls.countP (·.call.isInsert)

/-- The number of lookups. -/
def lookupsIn (calls : List (Asked (CandidateStore κ ε))) : Nat := calls.countP (!·.call.isInsert)

section Turn

variable (c : κ) (base : String) (scope : Scope) (order : VariantOrder) (stored : Except Error ε)
  (latest : Except Error (Option String)) (calls : List (Asked (CandidateStore κ ε)))

theorem insertsIn_turn :
    insertsIn (⟨.insert c, stored⟩ :: ⟨.latest base scope order, latest⟩ :: calls) =
      insertsIn calls + 1 := by
  simp [insertsIn, CandidateCall.isInsert]

theorem lookupsIn_turn :
    lookupsIn (⟨.insert c, stored⟩ :: ⟨.latest base scope order, latest⟩ :: calls) =
      lookupsIn calls + 1 := by
  simp [lookupsIn, CandidateCall.isInsert]

end Turn

/-- A call after which a creation of a variant of `base` goes on, as long as it may and can: an
insert that finds the slug taken, or a lookup that shows which variant comes next. -/
inductive GoesOn (base : String) : Asked (CandidateStore κ ε) → Prop
  | refused (stored : κ) {e : Error} (h : e.isSlugTaken = true) :
      GoesOn base ⟨.insert stored, .error e⟩
  | found (scope : Scope) (order : VariantOrder) {latest : Option String} {next : NumberedSlug}
      (h : nextVariant base latest = .ok next) : GoesOn base ⟨.latest base scope order, .ok latest⟩

/-- The calls and the result of a creation of a variant of `base`, with `retries` retries left. If
`full`, the last of its attempts has no number, and it comes to that attempt by calls after each of
which it goes on. -/
structure Counted (base : String) (retries : Nat) (full : Prop)
    (calls : List (Asked (CandidateStore κ ε))) (result : Except CreationError ε) : Prop where
  inserts : insertsIn calls ≤ retries + 1
  lookups : lookupsIn calls ≤ retries
  uncounted_iff : result = .error (.uncounted base) ↔ full ∧ ∀ asked ∈ calls, GoesOn base asked
  /-- Such a creation has looked up after every insert. -/
  uncounted : result = .error (.uncounted base) → insertsIn calls = retries ∧
    lookupsIn calls = retries

namespace Counted

variable {base : String} {retries : Nat} {full : Prop} {c : κ}
  {calls : List (Asked (CandidateStore κ ε))} {result : Except CreationError ε}

theorem of_insert (answer : Except Error ε) (slug : String) (number : UInt32)
    (hends : ∀ e, answer = .error e → e.isSlugTaken → ¬full) :
    Counted base retries full [⟨.insert c, answer⟩] (answer.mapError (.insert slug number)) where
  inserts := Nat.le_add_left 1 retries
  lookups := Nat.zero_le retries
  uncounted_iff := by
    refine ⟨fun h => ?_, fun ⟨hfull, hall⟩ => ?_⟩
    · cases answer <;> cases h
    · cases hall _ (List.mem_singleton_self _) with
      | refused _ htaken => exact absurd hfull (hends _ rfl htaken)
  uncounted h := by cases answer <;> cases h

theorem of_stuck {e cause : Error} {answer : Except Error (Option String)} {scope : Scope}
    {order : VariantOrder} (hcause : answer.bind (nextVariant base) = .error cause) :
    Counted (ε := ε) base (retries + 1) full [⟨.insert c, .error e⟩,
      ⟨.latest base scope order, answer⟩]
      (.error (.resolve base cause)) where
  inserts := Nat.le_add_left 1 (retries + 1)
  lookups := Nat.le_add_left 1 retries
  uncounted_iff := by
    refine ⟨nofun, fun ⟨_, hall⟩ => ?_⟩
    cases hall _ (List.mem_cons_of_mem _ (List.mem_singleton_self _)) with
    | found _ _ hnext => cases hcause.symm.trans hnext
  uncounted := nofun

section Refused

variable {e : Error} {latest : Option String} {next : NumberedSlug} {scope : Scope}
  {order : VariantOrder} (htaken : e.isSlugTaken = true)
  (hnext : nextVariant base latest = .ok next)
include htaken hnext

theorem of_full (hfull : full) :
    Counted (ε := ε) base 1 full [⟨.insert c, .error e⟩, ⟨.latest base scope order, .ok latest⟩]
      (.error (.uncounted base)) where
  inserts := Nat.le_succ 1
  lookups := Nat.le_refl 1
  uncounted_iff := by
    refine ⟨fun _ => ⟨hfull, ?_⟩, fun _ => rfl⟩
    simp only [List.forall_mem_cons]
    exact ⟨.refused c htaken, .found scope order hnext, nofun⟩
  uncounted _ := ⟨rfl, rfl⟩

theorem of_next (h : Counted base retries full calls result) :
    Counted base (retries + 1) full
      (⟨.insert c, .error e⟩ :: ⟨.latest base scope order, .ok latest⟩ :: calls) result := by
  refine ⟨?_, ?_, ?_, fun hresult => ?_⟩
  · rw [insertsIn_turn]
    exact Nat.succ_le_succ h.inserts
  · rw [lookupsIn_turn]
    exact Nat.succ_le_succ h.lookups
  · simp only [h.uncounted_iff, List.forall_mem_cons, GoesOn.refused c htaken,
      GoesOn.found scope order hnext, true_and]
  · obtain ⟨hi, hl⟩ := h.uncounted hresult
    rw [insertsIn_turn, lookupsIn_turn, hi, hl]
    exact ⟨rfl, rfl⟩

end Refused

end Counted

/-! ### Every creation can be counted but one -/

variable [Candidate κ]

theorem attemptFrom_counted (h : Prog.Handler (CandidateStore κ ε) σ) (base : String)
    (scope : Scope) (order : VariantOrder) {retries : Nat} {attempt : UInt32}
    (hsize : attempt.toNat + retries ≤ UInt32.size) (c : κ) (s : σ) :
    let p : Prog (CandidateStore κ ε) _ := attemptFrom base scope order retries attempt c
    Counted base retries (attempt.toNat + retries = UInt32.size) (p.log h s) (p.run h s).1 := by
  -- on the retries that are left: one retry less is one attempt more, so that their sum stays
  induction retries generalizing attempt c s with
  | zero =>
    intro p
    have hcounted : ¬attempt.toNat + 0 = UInt32.size := Nat.ne_of_lt attempt.toNat_lt
    simp only [p, attemptFrom_eq, Prog.log_ask, Prog.run_ask]
    cases (h (.insert c) s).1 with
    | ok entity => exact .of_insert (.ok entity) (Candidate.slug c) attempt nofun
    | error e => exact .of_insert (.error e) (Candidate.slug c) attempt fun _ _ _ => hcounted
  | succ retries ih =>
    intro p
    simp only [p, attemptFrom_eq, Prog.log_ask, Prog.run_ask]
    cases (h (.insert c) s).1 with
    | ok entity => exact .of_insert (.ok entity) (Candidate.slug c) attempt nofun
    | error e =>
      simp only [afterInsert]
      split_ifs with htaken
      · simp only [Prog.log_ask, Prog.run_ask]
        generalize h (.latest base scope order) _ = answered
        obtain ⟨answer, s'⟩ := answered
        dsimp only
        cases hnext : answer.bind (nextVariant base) with
        | error cause =>
          rw [afterLookup_error _ _ _ _ _ _ hnext]
          exact .of_stuck hnext
        | ok next =>
          obtain ⟨latest, rfl, -⟩ := bind_nextVariant_ok hnext
          by_cases hlast : attempt.toNat + 1 = UInt32.size
          · obtain rfl : retries = 0 := by omega
            rw [afterLookup_uncounted _ _ _ _ hlast _ hnext]
            exact .of_full htaken hnext hlast
          · have hlt : attempt.toNat + 1 < UInt32.size := by omega
            have hattempt : (attempt + 1).toNat = attempt.toNat + 1 := toNat_succ_attempt hlt
            have hsum : attempt.toNat + (retries + 1) = (attempt + 1).toNat + retries := by omega
            rw [afterLookup_ok _ _ _ _ hlt _ hnext, hsum]
            exact .of_next htaken hnext (ih (hsum ▸ hsize) _ s')
      · exact .of_insert (.error e) (Candidate.slug c) attempt fun e' he htaken' =>
          absurd (Except.error.inj he ▸ htaken') htaken

/-- **A creation makes at most one insert more than its policy allows retries**, and one lookup for
each of these, whatever the store answers. It counts its attempts, except under the largest policy:
there a store that refuses the candidate each time, and shows a next variant each time, is asked
until no number is left for the attempt that is allowed next. -/
theorem create_counted (h : Prog.Handler (CandidateStore κ ε) σ) (s : σ) (policy : RetryPolicy)
    (d : κ) :
    let p : Prog (CandidateStore κ ε) _ := create policy d
    Counted (Candidate.slug d) policy.retries.toNat (policy.retries.toNat + 1 = UInt32.size)
      (p.log h s)
      (p.run h s).1 := by
  intro p
  have hone : (1 : UInt32).toNat + policy.retries.toNat = policy.retries.toNat + 1 :=
    Nat.add_comm 1 _
  have hsize : (1 : UInt32).toNat + policy.retries.toNat ≤ UInt32.size :=
    hone.symm ▸ policy.retries.toNat_lt
  rw [← hone]
  exact attemptFrom_counted h (Candidate.slug d) (Candidate.scope d) policy.order hsize d s

end Counting

/-- **A creation that cannot count its attempts**, under a policy that a server may have: it is
allowed one attempt more than there are numbers. The slug is taken, and so is the next variant,
which is hidden from lookups. -/
theorem Registry.attempts_overflow :
    let env : Settings.Environment := fun name => if name = "SLUG_MAX_RETRIES"
      then some "4294967295" else none
    let policy : RetryPolicy := ⟨4294967295, .newest⟩
    let r : Registry := { rows := [⟨"hero", .user 1⟩], hidden := ["hero-1"] }
    (Settings.ofEnvironment env).map (·.slugPolicy) = .ok policy ∧
      (create policy ⟨"hero", .user 1⟩).run Registry.handle r =
        (.error (.uncounted "hero"), r.grown 4294967295 4294967295 []) := by
  intro env policy r
  have htaken : r.taken ⟨"hero", .user 1⟩ = true := by decide +kernel
  have hnext : r.proposed "hero" (.user 1) .newest = .ok ⟨"hero-1", 1⟩ := by decide +kernel
  have hrefused : r.taken ⟨"hero-1", .user 1⟩ = true := by decide +kernel
  refine ⟨by decide +kernel, ?_⟩
  rw [Registry.run_create_alone]
  simp [Registry.alone, htaken, hnext, hrefused, policy, r, UInt32.size]

end Storyline
