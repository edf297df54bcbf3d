import Storyline.Proofs.Attempts
import Storyline.Proofs.Creations
import Storyline.Proofs.Ladder
import Storyline.Proofs.Scopes

/-!
# Creations by themselves

An insert that is refused leaves the rows of a registry as they are. While nobody else writes, the
next lookup shows what the last one has shown, and the same variant is tried again: a creation that
has been refused twice is at a standstill, and further retries are only counted.

* `Registry.proposed`: the variant that a registry proposes;
* `Registry.run_attempt_stored`, `Registry.run_attempt_retried`, ...: one equation for each way that
  an attempt can go;
* `Registry.run_standstill`: what is left of the retries, once the variant that is proposed is
  refused;
* `Registry.alone`: the end of a creation without its loop, with `Registry.run_create_alone`, and
  `Registry.rows_create` for the rows;
* **`Registry.create_prolonged`**: more retries than one change nothing but the number of the last
  attempt.
-/

namespace Storyline.Registry

/-! ## Proposals -/

/-- The variant after the latest one of `base`, as far as the registry shows it. -/
def proposed (r : Registry) (base : String) (scope : Scope) (order : VariantOrder) :
    Except Error NumberedSlug :=
  (r.shown base scope order).bind (nextVariant base)

section Attempts

variable {r : Registry} {base : String} {scope : Scope} {order : VariantOrder} {e : Entry}

/-! Calls that add no rows leave the answers to further calls as they are. -/

theorem shown_grown (r : Registry) (inserts lookups : Nat) (base : String) (scope : Scope)
    (order : VariantOrder) :
    (r.grown inserts lookups []).shown base scope order = r.shown base scope order := by
  simp [shown, grown]

theorem proposed_grown (r : Registry) (inserts lookups : Nat) (base : String) (scope : Scope)
    (order : VariantOrder) :
    (r.grown inserts lookups []).proposed base scope order = r.proposed base scope order := by
  rw [proposed, shown_grown, proposed]

theorem taken_grown (r : Registry) (inserts lookups : Nat) (e : Entry) :
    (r.grown inserts lookups []).taken e = r.taken e := by
  simp [taken, grown]

/-! ## One attempt -/

theorem run_attempt_failing (hfails : r.insertFails = true) (retries : Nat) (attempt : UInt32) :
    (attemptFrom (ε := Entity) base scope order retries attempt e).run handle r =
      (.error (.insert e.slug attempt insertFailure), r.grown 1 0 []) := by
  rw [attemptFrom_eq, Prog.run_ask, handle_insert_failing hfails]
  cases retries <;> rfl

theorem run_attempt_stored (hfails : r.insertFails = false) (hfree : r.taken e = false)
    (retries : Nat) (attempt : UInt32) :
    (attemptFrom base scope order retries attempt e).run handle r =
      (.ok (⟨r.rows.length + 1, e.slug⟩ : Entity), r.grown 1 0 [e]) := by
  rw [attemptFrom_eq, Prog.run_ask, handle_insert_stored hfails hfree]
  rfl

section Refused

variable (hfails : r.insertFails = false) (htaken : r.taken e = true)
include hfails htaken

theorem run_attempt_last (attempt : UInt32) :
    (attemptFrom (ε := Entity) base scope order 0 attempt e).run handle r =
      (.error (.insert e.slug attempt (.slugTaken entityName e.slug)), r.grown 1 0 []) := by
  rw [attemptFrom_eq, Prog.run_ask, handle_insert_refused hfails htaken]
  rfl

theorem run_attempt_refused (retries : Nat) (attempt : UInt32) :
    (attemptFrom (ε := Entity) base scope order (retries + 1) attempt e).run handle r =
      (afterLookup base scope order retries attempt e (r.shown base scope order)).run handle
        (r.grown 1 1 []) := by
  rw [attemptFrom_eq, Prog.run_ask, handle_insert_refused hfails htaken]
  simp only [afterInsert, Error.isSlugTaken, if_true]
  rw [Prog.run_ask, handle_latest_shown, grown_grown, shown_grown]
  rfl

theorem run_attempt_stuck {cause : Error} (hnext : r.proposed base scope order = .error cause)
    (retries : Nat) (attempt : UInt32) :
    (attemptFrom (ε := Entity) base scope order (retries + 1) attempt e).run handle r =
      (.error (.resolve base cause), r.grown 1 1 []) := by
  rw [run_attempt_refused hfails htaken, afterLookup_error _ _ _ _ _ _ hnext, Prog.run_done]

variable {next : NumberedSlug} (hnext : r.proposed base scope order = .ok next)
include hnext

theorem run_attempt_retried (retries : Nat) {attempt : UInt32}
    (hsize : attempt.toNat + 1 < UInt32.size) :
    (attemptFrom (ε := Entity) base scope order (retries + 1) attempt e).run handle r =
      (attemptFrom base scope order retries (attempt + 1)
        (Candidate.withSlug e next.slug)).run handle (r.grown 1 1 []) := by
  rw [run_attempt_refused hfails htaken, afterLookup_ok _ _ _ _ hsize _ hnext]

theorem run_attempt_uncounted (retries : Nat) {attempt : UInt32}
    (hsize : attempt.toNat + 1 = UInt32.size) :
    (attemptFrom (ε := Entity) base scope order (retries + 1) attempt e).run handle r =
      (.error (.uncounted base), r.grown 1 1 []) := by
  rw [run_attempt_refused hfails htaken, afterLookup_uncounted _ _ _ _ hsize _ hnext, Prog.run_done]

end Refused

/-! ## Standstill -/

section Standstill

variable {next : NumberedSlug} (hfails : r.insertFails = false) (htaken : r.taken e = true)
  (hnext : r.proposed base e.scope order = .ok next)
include hfails htaken hnext

theorem run_attempt_renamed (hfree : r.taken ⟨next.slug, e.scope⟩ = false) (retries : Nat)
    {attempt : UInt32} (hsize : attempt.toNat + 1 < UInt32.size) :
    (attemptFrom base e.scope order (retries + 1) attempt e).run handle r =
      (.ok (⟨r.rows.length + 1, next.slug⟩ : Entity), r.grown 2 1 [⟨next.slug, e.scope⟩]) := by
  have hfree' := (taken_grown r 1 1 ⟨next.slug, e.scope⟩).trans hfree
  rw [run_attempt_retried hfails htaken hnext retries hsize]
  refine (run_attempt_stored (r := r.grown 1 1 []) hfails hfree' retries (attempt + 1)).trans ?_
  simp [grown]

variable (hrefused : r.taken ⟨next.slug, e.scope⟩ = true)
include hrefused

/-- **A variant that is proposed and refused** is proposed and refused at all attempts that are
left. -/
theorem run_standstill {retries : Nat} {attempt : UInt32}
    (hsize : attempt.toNat + (retries + 1) < UInt32.size) :
    (attemptFrom (ε := Entity) base e.scope order (retries + 1) attempt e).run handle r =
      (.error (.insert next.slug (.ofNat (attempt.toNat + (retries + 1)))
        (.slugTaken entityName next.slug)),
        r.grown (retries + 2) (retries + 1) []) := by
  -- on the retries that are left: the registry answers as before, and the candidate has the same
  -- scope
  induction retries generalizing attempt e r with
  | zero =>
    have hrefused' := (taken_grown r 1 1 ⟨next.slug, e.scope⟩).trans hrefused
    have hattempt : (attempt + 1).toNat = attempt.toNat + 1 := toNat_succ_attempt hsize
    rw [run_attempt_retried hfails htaken hnext 0 hsize]
    refine (run_attempt_last (r := r.grown 1 1 []) hfails hrefused' (attempt + 1)).trans ?_
    rw [grown_grown, Nat.zero_add, ← hattempt, UInt32.ofNat_toNat]
    rfl
  | succ retries ih =>
    have hnext' := (proposed_grown r 1 1 base e.scope order).trans hnext
    have hrefused' := (taken_grown r 1 1 ⟨next.slug, e.scope⟩).trans hrefused
    have hattempt : (attempt + 1).toNat = attempt.toNat + 1 := toNat_succ_attempt (by omega)
    have hleft : (attempt + 1).toNat + (retries + 1) < UInt32.size := by omega
    rw [run_attempt_retried hfails htaken hnext (retries + 1) (by omega)]
    refine (ih (r := r.grown 1 1 []) (e := ⟨next.slug, e.scope⟩) hfails hrefused' hnext'
      hrefused' hleft).trans ?_
    rw [grown_grown, hattempt, Nat.add_right_comm attempt.toNat 1, Nat.add_comm 1, Nat.add_comm 1]
    rfl

theorem run_standstill_uncounted {retries : Nat} {attempt : UInt32}
    (hsize : attempt.toNat + (retries + 1) = UInt32.size) :
    (attemptFrom (ε := Entity) base e.scope order (retries + 1) attempt e).run handle r =
      (.error (.uncounted base), r.grown (retries + 1) (retries + 1) []) := by
  induction retries generalizing attempt e r with
  | zero => exact run_attempt_uncounted hfails htaken hnext 0 hsize
  | succ retries ih =>
    have hnext' := (proposed_grown r 1 1 base e.scope order).trans hnext
    have hrefused' := (taken_grown r 1 1 ⟨next.slug, e.scope⟩).trans hrefused
    have hattempt : (attempt + 1).toNat = attempt.toNat + 1 := toNat_succ_attempt (by omega)
    have hleft : (attempt + 1).toNat + (retries + 1) = UInt32.size := by omega
    rw [run_attempt_retried hfails htaken hnext (retries + 1) (by omega)]
    refine (ih (r := r.grown 1 1 []) (e := ⟨next.slug, e.scope⟩) hfails hrefused' hnext'
      hrefused' hleft).trans ?_
    rw [grown_grown, Nat.add_comm 1]
    rfl

end Standstill

/-! ## Creations without a loop -/

/-- How a creation of `e` with this number of retries ends in a registry to which nobody else
writes, and the registry that it leaves. The retries matter only where the variant that is proposed
is refused. -/
def alone (r : Registry) (e : Entry) (order : VariantOrder) (retries : Nat) :
    Except CreationError Entity × Registry :=
  if r.insertFails then (.error (.insert e.slug 1 insertFailure), r.grown 1 0 [])
  else if !r.taken e then (.ok ⟨r.rows.length + 1, e.slug⟩, r.grown 1 0 [e])
  else if retries = 0 then (.error (.insert e.slug 1 (.slugTaken entityName e.slug)),
    r.grown 1 0 [])
  else
    match r.proposed e.slug e.scope order with
    | .error cause => (.error (.resolve e.slug cause), r.grown 1 1 [])
    | .ok next =>
      if !r.taken ⟨next.slug, e.scope⟩ then
        (.ok ⟨r.rows.length + 1, next.slug⟩, r.grown 2 1 [⟨next.slug, e.scope⟩])
      else if retries + 1 < UInt32.size then
        (.error (.insert next.slug (.ofNat (retries + 1)) (.slugTaken entityName next.slug)),
          r.grown (retries + 1) retries [])
      else (.error (.uncounted e.slug), r.grown retries retries [])

/-- **A creation by itself** ends as it would without a loop. -/
theorem run_create_alone (policy : RetryPolicy) (e : Entry) (r : Registry) :
    (create policy e).run handle r = r.alone e policy.order policy.retries.toNat := by
  change (attemptFrom e.slug e.scope policy.order policy.retries.toNat 1 e).run handle r = _
  have hbound : policy.retries.toNat < UInt32.size := policy.retries.toNat_lt
  generalize policy.retries.toNat = retries at hbound
  have hone : (1 : UInt32).toNat = 1 := rfl
  have htwo : (1 : UInt32).toNat + 1 < UInt32.size := by decide
  cases hfails : r.insertFails with
  | true =>
    rw [alone, if_pos hfails]
    exact run_attempt_failing hfails retries 1
  | false =>
    cases htaken : r.taken e with
    | false =>
      simp only [alone, hfails, htaken, Bool.not_false, Bool.false_eq_true, if_true, if_false]
      exact run_attempt_stored hfails htaken retries 1
    | true =>
      simp only [alone, hfails, htaken, Bool.not_true, Bool.false_eq_true, if_false]
      cases retries with
      | zero => exact run_attempt_last hfails htaken 1
      | succ retries =>
        rw [if_neg (Nat.succ_ne_zero retries)]
        cases hnext : r.proposed e.slug e.scope policy.order with
        | error cause => exact run_attempt_stuck hfails htaken hnext retries 1
        | ok next =>
          cases hrefused : r.taken ⟨next.slug, e.scope⟩ with
          | false =>
            simp only [hrefused, Bool.not_false, if_true]
            exact run_attempt_renamed hfails htaken hnext hrefused retries htwo
          | true =>
            simp only [hrefused, Bool.not_true, Bool.false_eq_true, if_false]
            split_ifs with hsize
            · rw [run_standstill hfails htaken hnext hrefused (by omega), hone, Nat.add_comm 1]
            · exact run_standstill_uncounted hfails htaken hnext hrefused (by omega)

theorem run_resolve (r : Registry) (base : String) (scope : Scope) (order : VariantOrder) :
    (resolve (κ := Entry) (ε := Entity) base scope order).run handle r =
      (r.proposed base scope order, r.grown 0 1 []) := by
  rw [resolve, Prog.run_ask, handle_latest_shown]
  rfl

/-- **A creation by itself adds one row at most**: the candidate, or the candidate under the variant
that the registry proposes. -/
theorem rows_create (policy : RetryPolicy) (e : Entry) (r : Registry) :
    let rows := ((create (ε := Entity) policy e).run handle r).2.rows
    rows = r.rows ∨ rows = r.rows ++ [e] ∨
      ∃ next, r.proposed e.slug e.scope policy.order = .ok next ∧
      rows = r.rows ++ [⟨next.slug, e.scope⟩] := by
  have hsame : ∀ i l, (r.grown i l []).rows = r.rows := fun _ _ => List.append_nil r.rows
  simp only [run_create_alone, alone]
  split
  · exact .inl (hsame 1 0)
  · split
    · exact .inr (.inl rfl)
    · split
      · exact .inl (hsame 1 0)
      · split
        · exact .inl (hsame 1 1)
        · next next hnext =>
          split
          · exact .inr (.inr ⟨next, hnext, rfl⟩)
          · split <;> exact .inl (hsame _ _)

end Attempts

/-! ## More retries than one -/

/-- How a creation with this number of retries ends, where one with a single retry ends in the first
way. -/
inductive Prolonged (retries : Nat) :
    Except CreationError Entity → Except CreationError Entity → Prop
  | stored (entity : Entity) : Prolonged retries (.ok entity) (.ok entity)
  | stuck (base : String) (cause : Error) :
      Prolonged retries (.error (.resolve base cause)) (.error (.resolve base cause))
  /-- The first insert fails, and not for a taken slug. -/
  | failed (slug : String) {cause : Error} (h : cause.kind ≠ .slugTaken) :
      Prolonged retries (.error (.insert slug 1 cause)) (.error (.insert slug 1 cause))
  /-- The variant that is proposed is refused each time, so that only the number of the last attempt
  changes. -/
  | refused (slug : String) {cause : Error} (h : cause.kind = .slugTaken) {last : UInt32}
      (hlast : last.toNat = retries + 1) :
      Prolonged retries (.error (.insert slug 2 cause)) (.error (.insert slug last cause))

/-- **Without other writers, retries beyond the first change nothing**, whatever the rows and the
settings of the registry: they leave the same registry but for its counts of calls, and the creation
ends in the same way. If the last attempt is still refused, it is refused for the same slug. -/
theorem create_prolonged (r : Registry) (e : Entry) (order : VariantOrder) {retries : UInt32}
    (hone : 1 ≤ retries.toNat) (hcounted : retries.toNat + 1 < UInt32.size) :
    let once := (create (ε := Entity) ⟨1, order⟩ e).run handle r
    let often := (create (ε := Entity) ⟨retries, order⟩ e).run handle r
    Prolonged retries.toNat once.1 often.1 ∧
      often.2 = { once.2 with inserts := often.2.inserts, lookups := often.2.lookups } := by
  have hne : retries.toNat ≠ 0 := Nat.pos_iff_ne_zero.mp hone
  have hsingle : (1 : UInt32).toNat = 1 := rfl
  simp only [run_create_alone, alone, hsingle, Nat.one_ne_zero, hne, hcounted, if_false, if_true]
  split
  · exact ⟨.failed e.slug (by decide), rfl⟩
  · split
    · exact ⟨.stored _, rfl⟩
    · split
      · next cause hnext => exact ⟨.stuck e.slug cause, rfl⟩
      · next next hnext =>
        split
        · exact ⟨.stored _, rfl⟩
        · refine ⟨.refused next.slug rfl ?_, rfl⟩
          exact UInt32.toNat_ofNat_of_lt' hcounted

/-- The first variant is hidden: one retry is refused at the second attempt, four are refused at the
fifth. -/
theorem create_prolonged_hidden :
    let r : Registry := { rows := [⟨"hero", .user 1⟩], hidden := ["hero-1"] }
    let e : Entry := ⟨"hero", .user 1⟩
    let once := (create (ε := Entity) ⟨1, .highest⟩ e).run handle r
    let often := (create (ε := Entity) ⟨4, .highest⟩ e).run handle r
    1 ≤ (4 : UInt32).toNat ∧ (4 : UInt32).toNat + 1 < UInt32.size ∧
      once.1 = .error (.insert "hero-1" 2 (.slugTaken "TestEntity" "hero-1")) ∧
      often.1 = .error (.insert "hero-1" 5 (.slugTaken "TestEntity" "hero-1")) ∧
      Prolonged 4 once.1 often.1 ∧
      often.2 = { once.2 with inserts := often.2.inserts, lookups := often.2.lookups } := by
  intro r e once often
  have hone : 1 ≤ (4 : UInt32).toNat := by decide
  have hcounted : (4 : UInt32).toNat + 1 < UInt32.size := by decide
  exact ⟨hone, hcounted, by decide +kernel, by decide +kernel,
    create_prolonged r e .highest hone hcounted⟩

/-! ## The two orders of variants

The latest variant is the one stored last, or the one with the largest number. As long as the
numbers of the variants do not fall in the order in which they were stored, it makes no difference
which of the two a creation counts on from; and creations that count on keep it so.

* `Registry.proposed_kind`: what is proposed depends on the largest number only;
* **`Registry.orders_agree`**: the variant that is resolved, and the rows after a creation.
-/

open Slug

variable {r : Registry} {base : String} {scope : Scope}

/-- The next variant, up to the words of an error, if a lookup in this order reveals the largest
number. -/
theorem proposed_kind {order : VariantOrder} (hlookup : r.lookupFails = false)
    (h : order = .highest ∨ (numbers base (slugsOf r.rows scope)).Pairwise (· ≤ ·)) :
    (r.proposed base scope order).mapError Error.kind =
      following base (topNumber base (slugsOf r.rows scope)) := by
  rw [proposed, shown, hlookup]
  exact (reveals_latest h).nextVariant

theorem slug_proposed {order : VariantOrder}
    (h : order = .highest ∨ (numbers base (slugsOf r.rows scope)).Pairwise (· ≤ ·))
    {next : NumberedSlug} (hnext : r.proposed base scope order = .ok next) :
    next.slug = rung base (topNumber base (slugsOf r.rows scope) + 1) := by
  cases hlookup : r.lookupFails with
  | true =>
    rw [proposed, shown, hlookup] at hnext
    cases hnext
  | false =>
    have hfollowing := proposed_kind hlookup h
    rw [hnext] at hfollowing
    exact (following_ok hfollowing.symm).2.2

/-- **The two orders agree while numbers do not fall**, and creations keep it so. In either order
the same variant is resolved, with the same number, or no variant for the same kind of reason.
Whatever its policy, a creation of `base` leaves the variants of `base` with numbers that do not
fall. -/
theorem orders_agree (r : Registry) (base : String) (scope : Scope)
    (hrising : (numbers base (slugsOf r.rows scope)).Pairwise (· ≤ ·)) :
    let resolved (order : VariantOrder) :=
      ((resolve (κ := Entry) (ε := Entity) base scope order).run handle r).1
    (resolved .newest).mapError Error.kind = (resolved .highest).mapError Error.kind ∧
      ∀ policy, (numbers base
        (slugsOf ((create (ε := Entity) policy ⟨base, scope⟩).run handle r).2.rows
        scope)).Pairwise (· ≤ ·) := by
  intro resolved
  refine ⟨?_, fun policy => ?_⟩
  · simp only [resolved, run_resolve]
    cases hlookup : r.lookupFails with
    | true => simp only [proposed, shown, hlookup, if_true]
    | false => rw [proposed_kind hlookup (.inr hrising), proposed_kind hlookup (.inl rfl)]
  · rcases rows_create policy ⟨base, scope⟩ r with hrows | hrows | ⟨next, hnext, hrows⟩
    · rw [hrows]
      exact hrising
    · rw [hrows, slugsOf_append_self]
      exact pairwise_numbers_append_rung hrising (k := 0) (.inl rfl)
    · rw [hrows, slugsOf_append_self r.rows ⟨next.slug, scope⟩, slug_proposed (.inr hrising) hnext]
      exact pairwise_numbers_append_rung hrising (.inr (Nat.le_succ _))

/-- The last two variants have the same number, and the second of them is found by age, the first by
number. -/
theorem orders_agree_zeros :
    let r : Registry :=
      { rows := [⟨"a", .everywhere⟩, ⟨"a-3", .everywhere⟩, ⟨"a-7", .everywhere⟩,
        ⟨"a-007", .everywhere⟩] }
    let resolved (order : VariantOrder) :=
      ((resolve (κ := Entry) (ε := Entity) "a" .everywhere order).run handle r).1
    (numbers "a" (slugsOf r.rows .everywhere)).Pairwise (· ≤ ·) ∧
      latest? r.rows "a" .everywhere .newest = some "a-007" ∧
      latest? r.rows "a" .everywhere .highest = some "a-7" ∧
      (resolved .newest).mapError Error.kind = (resolved .highest).mapError Error.kind ∧
      resolved .newest = .ok ⟨"a-8", 8⟩ := by
  intro r resolved
  have hrising : (numbers "a" (slugsOf r.rows .everywhere)).Pairwise (· ≤ ·) := by decide +kernel
  exact ⟨hrising, by decide +kernel, by decide +kernel, (orders_agree r "a" .everywhere hrising).1,
    by decide +kernel⟩

end Storyline.Registry

/-! ## One retry

A creation by itself, which counts on from the largest number: its first retry finds a free slug,
unless there is no further variant.

* `Registry.Reliable.taken`, `Registry.Reliable.proposed`: what a reliable registry refuses and
  proposes;
* `Registry.run_create_free`, `Registry.run_create_retry`, `Registry.run_create_failed`: a creation
  whose slug is free, and one whose slug is taken, with a next variant and without one;
* `Registry.create_highest`: the result of a creation, its rows and its calls.
-/

namespace Storyline

namespace Registry

open Slug

variable {r : Registry} {base : String} {scope : Scope}

theorem Reliable.taken (hr : r.Reliable) (slug : String) (scope : Scope) :
    r.taken ⟨slug, scope⟩ = decide (slug ∈ slugsOf r.rows scope) := by
  simp [Registry.taken, hr.hidden, mem_slugsOf (e := ⟨slug, scope⟩)]

theorem Reliable.proposed (hr : r.Reliable) (base : String) (scope : Scope) (order : VariantOrder) :
    r.proposed base scope order = nextVariant base (latest? r.rows base scope order) := by
  rw [Registry.proposed, shown, hr.lookupFails]
  rfl

theorem run_create_free (hr : r.Reliable) (policy : RetryPolicy)
    (hfree : base ∉ slugsOf r.rows scope) :
    (create policy (⟨base, scope⟩ : Entry)).run handle r =
      (.ok (⟨r.rows.length + 1, base⟩ : Entity),
      { r with rows := r.rows ++ [⟨base, scope⟩], inserts := r.inserts + 1 }) := by
  rw [run_create_alone]
  simp [alone, hr.insertFails, hr.taken, hfree, grown]

section Taken

variable {policy : RetryPolicy} (hr : r.Reliable) (hretries : 1 ≤ policy.retries.toNat)
  (htaken : base ∈ slugsOf r.rows scope)
include hr hretries htaken

theorem run_create_retry {next : NumberedSlug}
    (hnext : nextVariant base (latest? r.rows base scope policy.order) = .ok next)
    (hfree : next.slug ∉ slugsOf r.rows scope) :
    (create policy (⟨base, scope⟩ : Entry)).run handle r =
      (.ok (⟨r.rows.length + 1, next.slug⟩ : Entity),
      { r with rows := r.rows ++ [⟨next.slug, scope⟩], inserts := r.inserts + 2, lookups :=
        r.lookups + 1 }) := by
  have hne : policy.retries.toNat ≠ 0 := Nat.pos_iff_ne_zero.mp hretries
  rw [run_create_alone]
  simp [alone, hr.insertFails, hr.taken, hr.proposed, htaken, hne, hnext, hfree, grown]

theorem run_create_failed {cause : Error}
    (hnext : nextVariant base (latest? r.rows base scope policy.order) = .error cause) :
    (create (ε := Entity) policy (⟨base, scope⟩ : Entry)).run handle r =
      (.error (.resolve base cause),
      { r with inserts := r.inserts + 1, lookups := r.lookups + 1 }) := by
  have hne : policy.retries.toNat ≠ 0 := Nat.pos_iff_ne_zero.mp hretries
  rw [run_create_alone]
  simp [alone, hr.insertFails, hr.taken, hr.proposed, htaken, hne, hnext, grown]

end Taken

/-- **One retry finds a free slug if variants are counted on from the largest number.** A free slug
is stored at once. A taken one is replaced by the variant after the largest number, which is free:
two inserts and one lookup store it, if it has a number and is a slug. Otherwise the kind of the
error tells why, and the rows stay as they are. A taken slug is never the outcome. -/
theorem create_highest (hr : r.Reliable) {policy : RetryPolicy} (horder : policy.order = .highest)
    (hretries : 1 ≤ policy.retries.toNat) (base : String) (scope : Scope) :
    let slugs := slugsOf r.rows scope
    let top := topNumber base slugs
    let next := rung base (top + 1)
    let (result, r') := (create (ε := Entity) policy (⟨base, scope⟩ : Entry)).run handle r
    (base ∉ slugs → result = .ok ⟨r.rows.length + 1, base⟩ ∧
      r' = { r with rows := r.rows ++ [⟨base, scope⟩], inserts := r.inserts + 1 }) ∧
    (base ∈ slugs → top + 1 ≤ maxNumber ∧ Slug.check next = .ok () →
      next ∉ slugs ∧ result = .ok ⟨r.rows.length + 1, next⟩ ∧
      r' = { r with
        rows := r.rows ++ [⟨next, scope⟩], inserts := r.inserts + 2, lookups := r.lookups + 1 }) ∧
    (base ∈ slugs → ¬(top + 1 ≤ maxNumber ∧ Slug.check next = .ok ()) →
      (∃ cause, result = .error (.resolve base cause) ∧ cause.kind =
        if maxNumber < top then .unreadableSuffix
        else if top = maxNumber then .internal else .invalid) ∧
      r' = { r with inserts := r.inserts + 1, lookups := r.lookups + 1 }) ∧
    ∀ e, result = .error e → e.cause.kind ≠ .slugTaken := by
  intro slugs top next
  by_cases htaken : base ∈ slugs
  · have hreveals : Reveals base top (latest? r.rows base scope policy.order) :=
      horder ▸ reveals_highest r.rows base scope
    cases hn : nextVariant base (latest? r.rows base scope policy.order) with
    | ok found =>
      obtain ⟨hle, hcheck, hslug⟩ := hreveals.nextVariant_ok hn
      have hfree : next ∉ slugs := rung_top_not_mem base slugs
      rw [run_create_retry hr hretries htaken hn (hslug ▸ hfree), hslug]
      exact ⟨fun h => absurd htaken h, fun _ _ => ⟨hfree, rfl, rfl⟩, fun _ h =>
        absurd ⟨hle, hcheck⟩ h, fun e he => by cases he⟩
    | error cause =>
      obtain ⟨hnone, hkind⟩ := hreveals.nextVariant_error hn
      rw [run_create_failed hr hretries htaken hn]
      refine ⟨fun h => absurd htaken h, fun _ h => absurd h hnone, fun _ _ =>
        ⟨⟨cause, rfl, hkind⟩, rfl⟩, ?_⟩
      intro e he hslugTaken
      cases he
      rw [CreationError.cause, hkind] at hslugTaken
      split_ifs at hslugTaken
  · rw [run_create_free hr policy htaken]
    exact ⟨fun _ => ⟨rfl, rfl⟩, fun h => absurd h htaken, fun h => absurd h htaken,
      fun e he => by cases he⟩

/-- Zeros in front do not count, and neither do other scopes: the slug after `a-007` is `a-8`. -/
theorem create_highest_zeros :
    let r : Registry :=
      { rows := [⟨"a", .user 1⟩, ⟨"a-007", .user 1⟩, ⟨"a-3", .user 1⟩, ⟨"a-9", .user 2⟩] }
    "a-8" ∉ slugsOf r.rows (.user 1) ∧
      ((create ⟨1, .highest⟩ (⟨"a", .user 1⟩ : Entry)).run handle r).1 = .ok ⟨5, "a-8"⟩ := by
  intro r
  have horder : (⟨1, .highest⟩ : RetryPolicy).order = .highest := rfl
  have hr : r.Reliable := ⟨rfl, rfl, rfl⟩
  have h := (create_highest hr horder (by decide) "a" (.user 1)).2.1 (by decide +kernel)
    (by decide +kernel)
  have hnext : rung "a" (topNumber "a" (slugsOf r.rows (.user 1)) + 1) = "a-8" := by decide +kernel
  rw [hnext] at h
  exact ⟨h.1, h.2.1⟩

end Registry

end Storyline
