import Mathlib.Data.Fin.VecNotation
import Mathlib.Data.Fintype.Card
import Storyline.Proofs.Ladder
import Storyline.Proofs.Pool

/-!
# Creations side by side

Any number of creations share a registry, and nothing holds the registry between the lookup of one
of them and its next insert. Still no slug is given twice and none is left out.

* `Registry.creations`: a pool of creations that have not begun;
* `Registry.Stage`: where a creation is, and which slug it wants; `Registry.Stage.turn`: its next
  call;
* `Registry.Climb`: what holds of creations that ask for one slug, with
  `Registry.creations_climb`.
-/

namespace Storyline

/-- The entity that a creation has ended with. -/
def Prog.entity? {I : Interface} {φ α : Type} : Prog I (Except φ α) → Option α
  | .done (.ok a) => some a
  | _ => none

theorem Prog.entity?_eq_some {I : Interface} {φ α : Type} {p : Prog I (Except φ α)} {a : α} :
    p.entity? = some a ↔ p = .done (.ok a) := by
  constructor
  · intro h
    match p with
    | .done (.ok b) => rw [← Option.some.inj h]
  · rintro rfl
    rfl

namespace Registry

open Slug

/-- A registry that shows all its rows and answers all its calls. -/
structure Reliable (r : Registry) : Prop where
  hidden : r.hidden = []
  insertFails : r.insertFails = false
  lookupFails : r.lookupFails = false

/-- What a creation is asked for. -/
structure Job where
  policy : RetryPolicy
  candidate : Entry
  deriving DecidableEq, Repr

/-- A creation that shares a registry. -/
abbrev Creation := Prog (CandidateStore Entry Entity) (Except CreationError Entity)

/-- Creations that share a registry. -/
abbrev Creations (ι : Type) :=
    Pool (CandidateStore Entry Entity) ι (Except CreationError Entity) Registry

/-- Creations that have not begun. -/
def creations {ι : Type} (jobs : ι → Job) (r : Registry) : Creations ι :=
  ⟨fun i => create (jobs i).policy (jobs i).candidate, r⟩

/-! ## Answers of a reliable registry -/

section Answers

variable {r : Registry}

theorem handle_insert_taken (hr : r.Reliable) {e : Entry} (he : e ∈ r.rows) : handle (.insert e) r =
    (.error (.slugTaken entityName e.slug), { r with inserts := r.inserts + 1 }) := by
  simp [handle, taken, hr.insertFails, he]

theorem handle_insert_free (hr : r.Reliable) {e : Entry} (he : e ∉ r.rows) : handle (.insert e) r =
    (.ok ⟨r.rows.length + 1, e.slug⟩, { r with
      inserts := r.inserts + 1, rows := r.rows ++ [e] }) := by
  simp [handle, taken, hr.insertFails, hr.hidden, he]

theorem handle_latest (hr : r.Reliable) (base : String) (scope : Scope) (order : VariantOrder) :
    handle (.latest base scope order) r =
      (.ok (latest? r.rows base scope order), { r with lookups := r.lookups + 1 }) := by
  simp [handle, hr.lookupFails]

theorem Reliable.handle (hr : r.Reliable) (c : CandidateCall Entry) :
    (Registry.handle c r).2.Reliable := by
  cases c with
  | insert e =>
    by_cases he : e ∈ r.rows
    · rw [handle_insert_taken hr he]
      exact ⟨hr.hidden, hr.insertFails, hr.lookupFails⟩
    · rw [handle_insert_free hr he]
      exact ⟨hr.hidden, hr.insertFails, hr.lookupFails⟩
  | latest base scope order =>
    rw [handle_latest hr]
    exact ⟨hr.hidden, hr.insertFails, hr.lookupFails⟩

end Answers

/-! ## The stages of a creation -/

/-- A creation that has not stored anything: it is about to insert a slug that it may want, it has
been refused and is about to look up, or it has failed. -/
inductive Stage (base : String) (scope : Scope) (wanted : String → Prop) (refused : Prop) :
    Creation → Prop
  | inserting (order : VariantOrder) (retries : Nat) (attempt : UInt32) {slug : String}
      (hw : wanted slug) : Stage base scope wanted refused
        (attemptFrom base scope order retries attempt (⟨slug, scope⟩ : Entry))
  | lookingUp (order : VariantOrder) (retries : Nat) (attempt : UInt32) (slug : String)
      (hr : refused) : Stage base scope wanted refused
        (.ask (.latest base scope order)
          (afterLookup base scope order retries attempt (⟨slug, scope⟩ : Entry)))
  | failed (e : CreationError) : Stage base scope wanted refused (.done (.error e))

section Stage

variable {base : String} {scope : Scope} {wanted wanted' : String → Prop} {refused refused' : Prop}
  {x : Creation} {r : Registry}

theorem Stage.mono (h : Stage base scope wanted refused x) (hw : ∀ slug, wanted slug → wanted' slug)
    (hr : refused → refused') : Stage base scope wanted' refused' x := by
  cases h with
  | inserting order retries attempt h => exact .inserting order retries attempt (hw _ h)
  | lookingUp order retries attempt slug h => exact .lookingUp order retries attempt slug (hr h)
  | failed e => exact .failed e

theorem Stage.entity? (h : Stage base scope wanted refused x) : x.entity? = none := by
  cases h with
  | inserting order retries attempt h => rw [attemptFrom_eq]; rfl
  | lookingUp order retries attempt slug h => rfl
  | failed e => rfl

theorem stage_afterInsert (hr : refused) (order : VariantOrder) (retries : Nat) (attempt : UInt32)
    (slug : String) (e : Error) : Stage base scope wanted refused
      (afterInsert base scope order retries attempt (⟨slug, scope⟩ : Entry) (.error e)) := by
  cases retries with
  | zero => exact .failed _
  | succ retries =>
    simp only [afterInsert]
    split
    · exact .lookingUp order retries attempt slug hr
    · exact .failed _

theorem stage_afterLookup {order : VariantOrder} {latest : Option String}
    (hw : ∀ next, nextVariant base latest = .ok next → wanted next.slug) (retries : Nat)
    (attempt : UInt32) (slug : String) : Stage base scope wanted refused
      (afterLookup base scope order retries attempt (⟨slug, scope⟩ : Entry) (.ok latest)) := by
  simp only [afterLookup, Except.bind]
  cases hn : nextVariant base latest with
  | error cause => exact .failed _
  | ok next =>
    simp only
    split
    · exact .failed _
    · exact .inserting order retries (attempt + 1) (hw next hn)

/-- **The next call of a creation** either leaves the rows as they are, or stores a wanted slug and
ends the creation with it. -/
theorem Stage.turn {c : CandidateCall Entry} {k : CandidateCall.Answer Entity c → Creation}
    (h : Stage base scope wanted refused (.ask c k)) (hr : r.Reliable)
    (hrefused : ∀ slug, wanted slug → ⟨slug, scope⟩ ∈ r.rows → refused)
    (hnext : refused → ∀ order next, nextVariant base (latest? r.rows base scope order) = .ok next →
      wanted next.slug) :
    ((handle c r).2.rows = r.rows ∧ Stage base scope wanted refused (k (handle c r).1)) ∨
      ∃ slug, wanted slug ∧ ⟨slug, scope⟩ ∉ r.rows ∧
        (handle c r).2.rows = r.rows ++ [⟨slug, scope⟩] ∧
        k (handle c r).1 = .done (.ok ⟨r.rows.length + 1, slug⟩) := by
  generalize hx : (Prog.ask c k : Creation) = x at h
  cases h with
  | @inserting order retries attempt slug hw =>
    rw [attemptFrom_eq] at hx
    cases hx
    by_cases he : (⟨slug, scope⟩ : Entry) ∈ r.rows
    · rw [handle_insert_taken hr he]
      exact .inl ⟨rfl, stage_afterInsert (hrefused slug hw he) order retries attempt slug _⟩
    · rw [handle_insert_free hr he]
      exact .inr ⟨slug, hw, he, rfl, rfl⟩
  | lookingUp order retries attempt slug h =>
    cases hx
    rw [handle_latest hr]
    exact .inl ⟨rfl, stage_afterLookup (hnext h order) retries attempt slug⟩
  | failed e => cases hx

end Stage

/-! ## Creations that ask for one slug -/

section Climb

variable {ι : Type} [Fintype ι]

/-- The creations that have ended with an entity. -/
def ended (p : Creations ι) : Finset ι := {i | (p.progs i).entity?.isSome}

variable {jobs : ι → Job} {scope : Scope} {base : String} {n : Nat} {r s : Registry} {i : ι}
  {p : Creations ι} {x : Creation}

theorem mem_ended : i ∈ ended p ↔ (p.progs i).entity?.isSome := by
  simp [ended]

theorem ended_creations (jobs : ι → Job) (r : Registry) : ended (creations jobs r) = ∅ := by
  ext i
  simp [mem_ended, creations, create, attemptFrom_eq, Prog.entity?]

/-- The number of rungs, where `n` were there before and each creation in the scope adds one. -/
def height (jobs : ι → Job) (scope : Scope) (n : Nat) (p : Creations ι) : Nat :=
  n + ((ended p).filter fun i => (jobs i).candidate.scope = scope).card

/-- A creation that has not ended with an entity: in the scope it wants a rung, or the one after
the last, and it has been refused only if there are rungs. -/
def Climbing (base : String) (scope : Scope) (top : Nat) (job : Job) : Creation → Prop :=
  Stage job.candidate.slug job.candidate.scope
    (fun slug => job.candidate.scope = scope → ∃ k ≤ top, rung base k = slug)
    (job.candidate.scope = scope → 0 < top)

theorem Climbing.mono {top top' : Nat} {job : Job} (h : Climbing base scope top job x)
    (ht : top ≤ top') : Climbing base scope top' job x := by
  refine Stage.mono h (fun slug hw hs => ?_) fun hr hs => Nat.lt_of_lt_of_le (hr hs) ht
  obtain ⟨k, hk, hslug⟩ := hw hs
  exact ⟨k, Nat.le_trans hk ht, hslug⟩

/-- What holds of creations that ask for `base` in `scope` and started at `r`, where the slugs of
the scope were the first `n` rungs. -/
structure Climb (jobs : ι → Job) (scope : Scope) (base : String) (n : Nat) (r : Registry)
    (p : Creations ι) : Prop where
  reliable : p.store.Reliable
  kept : r.rows <+: p.store.rows
  added : p.store.rows.length = r.rows.length + (ended p).card
  rungs : slugsOf p.store.rows scope = ladder base (height jobs scope n p)
  climbing : ∀ i, (p.progs i).entity? = none →
    Climbing base scope (height jobs scope n p) (jobs i) (p.progs i)
  given : ∀ i e, (jobs i).candidate.scope = scope → (p.progs i).entity? = some e →
    ∃ k, n ≤ k ∧ k < height jobs scope n p ∧ e.slug = rung base k
  apart : ∀ i j e e', (jobs i).candidate.scope = scope → (jobs j).candidate.scope = scope → i ≠ j →
    (p.progs i).entity? = some e → (p.progs j).entity? = some e' → e.slug ≠ e'.slug

theorem Climb.ne_next (h : Climb jobs scope base n r p) (hi : (jobs i).candidate.scope = scope)
    {e : Entity} (he : (p.progs i).entity? = some e) :
    e.slug ≠ rung base (height jobs scope n p) := by
  obtain ⟨k, -, hk, hek⟩ := h.given i e hi he
  rw [hek]
  exact fun heq => absurd (rung_injective base heq) (Nat.ne_of_lt hk)

theorem climb_creations
    (hjobs : ∀ i, (jobs i).candidate.scope = scope → (jobs i).candidate.slug = base)
    (hr : r.Reliable) (hn : slugsOf r.rows scope = ladder base n) :
    Climb jobs scope base n r (creations jobs r) := by
  have hh : height jobs scope n (creations jobs r) = n := by
    simp [height, ended_creations]
  have hnone : ∀ i, ((creations jobs r).progs i).entity? = none := by
    intro i
    simp [creations, create, attemptFrom_eq, Prog.entity?]
  refine ⟨hr, List.prefix_rfl, ?_, by rw [hh]; exact hn,
    fun i _ => ?_, fun i e _ he => ?_, fun i j e e' _ _ _ he => ?_⟩
  · rw [ended_creations]
    rfl
  · exact .inserting (jobs i).policy.order _ 1 fun hs => ⟨0, Nat.zero_le _, (hjobs i hs).symm⟩
  · rw [hnone i] at he
    cases he
  · rw [hnone i] at he
    cases he

variable [DecidableEq ι]

theorem ended_update_none (hi : (p.progs i).entity? = none) (hx : x.entity? = none) :
    ended ⟨Function.update p.progs i x, s⟩ = ended p := by
  ext j
  by_cases hj : j = i
  · subst hj
    simp [mem_ended, hi, hx]
  · simp [mem_ended, hj]

theorem ended_update_some (hx : x.entity?.isSome) :
    ended ⟨Function.update p.progs i x, s⟩ = insert i (ended p) := by
  ext j
  by_cases hj : j = i
  · subst hj
    simp [mem_ended, hx]
  · simp [mem_ended, hj]

theorem height_update_none (hi : (p.progs i).entity? = none) (hx : x.entity? = none) :
    height jobs scope n ⟨Function.update p.progs i x, s⟩ = height jobs scope n p := by
  rw [height, ended_update_none hi hx, height]

theorem height_update_some (hi : (p.progs i).entity? = none) (hx : x.entity?.isSome) :
    height jobs scope n ⟨Function.update p.progs i x, s⟩ =
      height jobs scope n p + if (jobs i).candidate.scope = scope then 1 else 0 := by
  rw [height, ended_update_some hx, height, Finset.filter_insert]
  split
  · rw [Finset.card_insert_of_notMem (by simp [mem_ended, hi]), Nat.add_assoc]
  · rfl

theorem Climb.quiet (h : Climb jobs scope base n r p) (hs : s.Reliable)
    (hrows : s.rows = p.store.rows) (hi : (p.progs i).entity? = none)
    (hx : Climbing base scope (height jobs scope n p) (jobs i) x) :
    Climb jobs scope base n r ⟨Function.update p.progs i x, s⟩ := by
  have hx' : x.entity? = none := Stage.entity? hx
  have hsame : ∀ j, (Function.update p.progs i x j).entity? = (p.progs j).entity? := by
    intro j
    by_cases hj : j = i
    · subst hj
      rw [Function.update_self, hx', hi]
    · rw [Function.update_of_ne hj]
  refine ⟨hs, hrows ▸ h.kept, ?_, ?_, fun j hj => ?_, fun j e hj he => ?_,
    fun j k e e' hj hk hjk he he' => ?_⟩
  · rw [ended_update_none hi hx', hrows, h.added]
  · rw [height_update_none hi hx', hrows, h.rungs]
  · rw [height_update_none hi hx']
    by_cases hji : j = i
    · subst hji
      simpa only [Function.update_self] using hx
    · simp only [Function.update_of_ne hji] at hj ⊢
      exact h.climbing j hj
  · rw [height_update_none hi hx']
    exact h.given j e hj (hsame j ▸ he)
  · exact h.apart j k e e' hj hk hjk (hsame j ▸ he) (hsame k ▸ he')

/-- A turn that stores a slug: in the scope it is the rung after the last one. -/
theorem Climb.stored (h : Climb jobs scope base n r p) (hs : s.Reliable) {slug : String}
    (hrows : s.rows = p.store.rows ++ [⟨slug, (jobs i).candidate.scope⟩])
    (hi : (p.progs i).entity? = none)
    (hslug : (jobs i).candidate.scope = scope → slug = rung base (height jobs scope n p))
    (id : Nat) :
    Climb jobs scope base n r ⟨Function.update p.progs i (.done (.ok ⟨id, slug⟩)), s⟩ := by
  have hle : height jobs scope n p ≤
      height jobs scope n ⟨Function.update p.progs i (.done (.ok ⟨id, slug⟩)), s⟩ := by
    rw [height_update_some hi rfl]
    exact Nat.le_add_right _ _
  have hself : ∀ e, (Function.update p.progs i (.done (.ok ⟨id, slug⟩)) i).entity? = some e →
      e.slug = slug := by
    intro e he
    rw [Function.update_self] at he
    cases he
    rfl
  refine ⟨hs, ?_, ?_, ?_, fun j hj => ?_, fun j e hj he => ?_, fun j k e e' hj hk hjk he he' => ?_⟩
  · rw [hrows]
    exact h.kept.trans (List.prefix_append _ _)
  · rw [ended_update_some rfl, Finset.card_insert_of_notMem (by simp [mem_ended, hi]), hrows,
      List.length_append, h.added]
    rfl
  · rw [height_update_some hi rfl, hrows]
    by_cases hsc : (jobs i).candidate.scope = scope
    · have hrow := slugsOf_append_self p.store.rows ⟨slug, (jobs i).candidate.scope⟩
      rw [hsc] at hrow
      rw [if_pos hsc, hsc, hrow, h.rungs, ladder_succ, hslug hsc]
    · rw [if_neg hsc, slugsOf_append_of_ne (e := ⟨slug, _⟩) hsc, h.rungs]
      rfl
  · by_cases hji : j = i
    · subst hji
      simp only [Function.update_self] at hj
      cases hj
    · simp only [Function.update_of_ne hji] at hj ⊢
      exact (h.climbing j hj).mono hle
  · by_cases hji : j = i
    · subst hji
      refine ⟨height jobs scope n p, Nat.le_add_right _ _, ?_, (hself e he).trans (hslug hj)⟩
      rw [height_update_some hi rfl, if_pos hj]
      exact Nat.lt_succ_self _
    · simp only [Function.update_of_ne hji] at he
      obtain ⟨k, hn, hk, hek⟩ := h.given j e hj he
      exact ⟨k, hn, Nat.lt_of_lt_of_le hk hle, hek⟩
  · by_cases hji : j = i
    · subst hji
      simp only [Function.update_of_ne (Ne.symm hjk)] at he'
      rw [hself e he, hslug hj]
      exact (h.ne_next hk he').symm
    · simp only [Function.update_of_ne hji] at he
      by_cases hki : k = i
      · subst hki
        rw [hself e' he', hslug hk]
        exact h.ne_next hj he
      · simp only [Function.update_of_ne hki] at he'
        exact h.apart j k e e' hj hk hjk he he'

/-- **Every turn keeps the climb.** -/
theorem Climb.step (hjobs : ∀ i, (jobs i).candidate.scope = scope → (jobs i).candidate.slug = base)
    (h : Climb jobs scope base n r p) (i : ι) : Climb jobs scope base n r (p.step handle i) := by
  cases hp : p.progs i with
  | done a => rwa [Pool.step_done hp]
  | ask c k =>
    have hi : (p.progs i).entity? = none := by
      rw [hp]
      rfl
    have hstage : Climbing base scope (height jobs scope n p) (jobs i) (.ask c k) :=
      hp ▸ h.climbing i hi
    -- a wanted slug is taken only if the scope has a rung
    have hrefused : ∀ slug, ((jobs i).candidate.scope = scope →
        ∃ k ≤ height jobs scope n p, rung base k = slug) →
          ⟨slug, (jobs i).candidate.scope⟩ ∈ p.store.rows →
        (jobs i).candidate.scope = scope → 0 < height jobs scope n p := by
      intro slug _ hmem hsc
      have hmem := mem_slugsOf.mpr hmem
      rw [hsc, h.rungs, mem_ladder] at hmem
      obtain ⟨k, hk, -⟩ := hmem
      exact Nat.zero_lt_of_lt hk
    -- and then the variant to want instead is the next rung
    have hnext : ((jobs i).candidate.scope = scope → 0 < height jobs scope n p) → ∀ order next,
        nextVariant (jobs i).candidate.slug
          (latest? p.store.rows (jobs i).candidate.slug (jobs i).candidate.scope order) = .ok next →
        (jobs i).candidate.scope = scope →
          ∃ k ≤ height jobs scope n p, rung base k = next.slug := by
      intro hpos order next hnext hsc
      obtain ⟨m, hm⟩ := Nat.exists_eq_add_one_of_ne_zero (Nat.pos_iff_ne_zero.mp (hpos hsc))
      rw [hjobs i hsc, hsc] at hnext
      exact ⟨m + 1, hm.ge, (next_rung (h.rungs.trans (by rw [hm])) hnext).symm⟩
    rw [Pool.step_ask hp]
    rcases hstage.turn h.reliable hrefused hnext with ⟨hrows, hx⟩ | ⟨slug, hw, hfree, hrows, hx⟩
    · exact h.quiet (h.reliable.handle c) hrows hi hx
    · rw [hx]
      refine h.stored (h.reliable.handle c) hrows hi (fun hsc => ?_) _
      obtain ⟨k, hk, rfl⟩ := hw hsc
      have hfree := mt mem_slugsOf.mp hfree
      rw [hsc, h.rungs, rung_mem_ladder] at hfree
      rw [Nat.le_antisymm hk (Nat.not_lt.mp hfree)]

/-- **Creations side by side give every rung once.** Whatever the schedule, the slugs of the scope
are the first rungs in turn; the creations that have ended with an entity have new rungs, a
different one each; and every one of them has added one row, and no other creation has. -/
theorem creations_climb
    (hjobs : ∀ i, (jobs i).candidate.scope = scope → (jobs i).candidate.slug = base)
    (hr : r.Reliable) (hn : slugsOf r.rows scope = ladder base n) (schedule : List ι) :
    let p := (creations jobs r).run handle schedule
    (∃ m, slugsOf p.store.rows scope = ladder base m ∧ (ladder base m).Nodup ∧
      m = n + ((ended p).filter fun i => (jobs i).candidate.scope = scope).card) ∧
    (∀ i e, (jobs i).candidate.scope = scope → p.progs i = .done (.ok e) →
      e.slug ∈ slugsOf p.store.rows scope ∧ e.slug ∉ slugsOf r.rows scope) ∧
    (∀ i j e e', (jobs i).candidate.scope = scope → (jobs j).candidate.scope = scope → i ≠ j →
      p.progs i = .done (.ok e) → p.progs j = .done (.ok e') → e.slug ≠ e'.slug) ∧
    r.rows <+: p.store.rows ∧ p.store.rows.length = r.rows.length + (ended p).card := by
  intro p
  have h : Climb jobs scope base n r p :=
    Pool.run_induction (fun _ i h => h.step hjobs i) (climb_creations hjobs hr hn) schedule
  refine ⟨⟨_, h.rungs, nodup_ladder base _, rfl⟩, fun i e hi he => ?_,
    fun i j e e' hi hj hij he he' => ?_, h.kept, h.added⟩
  · obtain ⟨k, hk, hkm, hek⟩ := h.given i e hi (Prog.entity?_eq_some.mpr he)
    rw [h.rungs, hn, hek, rung_mem_ladder, rung_mem_ladder]
    exact ⟨hkm, Nat.not_lt.mpr hk⟩
  · exact h.apart i j e e' hi hj hij (Prog.entity?_eq_some.mpr he) (Prog.entity?_eq_some.mpr he')

/-- Two creations of one user and one elsewhere: the two are refused the same slug and look up the
same variant before either goes on. -/
theorem creations_climb_three :
    let jobs : Fin 3 → Job := ![⟨⟨2, .newest⟩, ⟨"a", .user 1⟩⟩, ⟨⟨2, .highest⟩, ⟨"a", .user 1⟩⟩,
      ⟨⟨0, .newest⟩, ⟨"b", .everywhere⟩⟩]
    let r : Registry := { rows := [⟨"a", .user 1⟩, ⟨"a-1", .user 1⟩] }
    let p := (creations jobs r).run handle [0, 1, 2, 1, 0, 1, 0, 0, 0]
    slugsOf p.store.rows (.user 1) = ["a", "a-1", "a-2", "a-3"] ∧ ended p = {0, 1, 2} ∧
      p.store.rows.length = r.rows.length + (ended p).card := by
  intro jobs r p
  have hjobs : ∀ i, (jobs i).candidate.scope = .user 1 → (jobs i).candidate.slug = "a" := by decide
  have hn : slugsOf r.rows (.user 1) = ladder "a" 2 := by decide +kernel
  exact ⟨by decide +kernel, by decide +kernel, (creations_climb hjobs ⟨rfl, rfl, rfl⟩ hn _).2.2.2.2⟩

end Climb

end Registry

end Storyline
