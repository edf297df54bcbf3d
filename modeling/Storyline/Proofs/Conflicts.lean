import Storyline.Proofs.Admission
import Storyline.Proofs.Settling
import Storyline.Proofs.Stamps

/-!
# Creations that fail

Requests one after the other. A request for a slug that is taken is answered with the next variant,
unless the lookup leads astray: the variant stored last need not have the largest number, and the
number found may be one after which there is none.

* `Slug.Exhausted`, `status_nextVariant`: the variants after which there is none;
* `next_taken_newest`, `next_free_highest`: when the next variant is taken itself;
* `Settles.status_conflict`, `Settles.status_internal`: endings that are answered as a conflict, and
  as a failure of the service;
* `Loglines.settles`, `StoryPlans.settles`: how creations end, by what is stored;
* `logline_conflicts`: when a request for a logline is answered as a conflict;
* `creations_internal`: when a request is answered as a failure of the service.
-/

namespace Storyline

open Http Slug

/-! ## The next variant -/

section Next

variable {base : String} {latest : Option String} {cause : Error}

/-- The latest variant has a number after which there is none. -/
def Slug.Exhausted (base : String) (latest : Option String) : Prop :=
  ∃ slug ds, latest = some slug ∧ suffix? base slug = some ds ∧ maxNumber ≤ suffixValue ds

theorem nextVariant_error_kind (h : nextVariant base latest = .error cause) :
    cause.kind ≠ .slugTaken := by
  unfold nextVariant at h
  split at h
  · next e hn =>
    cases h
    unfold nextNumber at hn
    split at hn
    · cases hn
    · split at hn
      · next e' he =>
        cases hn
        obtain ⟨fault, -, rfl⟩ := mapError_eq_error.mp he
        exact ErrorKind.noConfusion
      · split at hn
        · cases hn
          exact ErrorKind.noConfusion
        · cases hn
  · split at h
    · cases h
      exact ErrorKind.noConfusion
    · cases h

/-- **There is no next variant through a failure of the service** if the latest one has a number
after which there is none. -/
theorem status_nextVariant
    (hlatest : ∀ slug, latest = some slug → ∃ ds, suffix? base slug = some ds) :
    (∃ cause, nextVariant base latest = .error cause ∧ cause.kind.status = 500) ↔
      Exhausted base latest := by
  cases latest with
  | none =>
    have hreveals : Reveals base 0 none := .none rfl
    constructor
    · rintro ⟨cause, hnext, hstatus⟩
      have hkind := (hreveals.nextVariant_error hnext).2
      rw [hkind] at hstatus
      exact absurd hstatus (by decide)
    · rintro ⟨slug, ds, hslug, -⟩
      cases hslug
  | some slug =>
    obtain ⟨ds, hds⟩ := hlatest slug rfl
    have hreveals : Reveals base (suffixValue ds) (some slug) := .some hds (.inl rfl)
    constructor
    · rintro ⟨cause, hnext, hstatus⟩
      have hkind := (hreveals.nextVariant_error hnext).2
      refine ⟨slug, ds, rfl, hds, Nat.le_of_not_lt fun hlt => ?_⟩
      rw [hkind, if_neg (by omega), if_neg (by omega)] at hstatus
      exact absurd hstatus (by decide)
    · rintro ⟨slug', ds', hslug, hds', hle⟩
      cases hslug
      obtain rfl : ds' = ds := Option.some.inj (hds'.symm.trans hds)
      cases hnext : nextVariant base (some slug) with
      | ok next =>
        have := (hreveals.nextVariant_ok hnext).1
        omega
      | error cause =>
        have hkind := (hreveals.nextVariant_error hnext).2
        refine ⟨cause, rfl, ?_⟩
        rw [hkind]
        by_cases hlt : maxNumber < suffixValue ds'
        · rw [if_pos hlt]
          rfl
        · rw [if_neg hlt, if_pos (by omega)]
          rfl

end Next

/-! ## Lookups -/

section Lookups

variable {base slug : String} {slugs : List (String × Stamp)} {order : VariantOrder}

theorem suffix?_latestVariant? (h : latestVariant? base order slugs = some slug) :
    ∃ ds, suffix? base slug = some ds := by
  obtain ⟨v, hv, rfl⟩ := Option.map_eq_some_iff.mp h
  exact ⟨v.digits, mem_variantsOf (mem_sortBy.mp (List.mem_of_head? hv))⟩

theorem next_free_highest {next : NumberedSlug}
    (h : nextVariant base (latestVariant? base .highest slugs) = .ok next) :
    next.slug ∉ slugs.map Prod.fst := by
  rw [((reveals_variantsOf base slugs).nextVariant_ok h).2.2]
  exact rung_top_not_mem base _

/-- **The variant after the one stored last** is taken if the number after its number is. -/
theorem next_taken_newest (hsorted : slugs.Pairwise fun a b => a.2.Older b.2)
    (hcheck : ∀ slug ∈ slugs.map Prod.fst, Slug.check slug = .ok ()) :
    (∃ next, nextVariant base (latestVariant? base .newest slugs) = .ok next ∧
      next.slug ∈ slugs.map Prod.fst) ↔
      ∃ n < maxNumber, (numbers base (slugs.map Prod.fst)).getLast? = some n ∧
        rung base (n + 1) ∈ slugs.map Prod.fst := by
  have hlast : (numbers base (slugs.map Prod.fst)).getLast? =
      (variantsOf base slugs).getLast?.map fun v => suffixValue v.digits := by
    rw [numbers_variantsOf, List.getLast?_map]
  rw [latestVariant?_newest hsorted, hlast]
  cases hv : (variantsOf base slugs).getLast? with
  | none =>
    constructor
    · -- without a variant the next one is the first, and that would be a variant
      rintro ⟨next, hnext, hmem⟩
      rw [((Reveals.none rfl : Reveals base 0 none).nextVariant_ok hnext).2.2] at hmem
      have hone : 1 ∈ numbers base (slugs.map Prod.fst) :=
        mem_numbers.mpr ⟨_, hmem, _, suffix?_write base 1, suffixValue_write 1⟩
      rw [numbers_variantsOf, List.getLast?_eq_none_iff.mp hv] at hone
      exact absurd hone List.not_mem_nil
    · rintro ⟨n, -, h, -⟩
      cases h
  | some v =>
    have hreveals : Reveals base (suffixValue v.digits) (some v.slug) :=
      .some (mem_variantsOf (List.mem_of_getLast? hv)) (.inl rfl)
    constructor
    · rintro ⟨next, hnext, hmem⟩
      obtain ⟨hle, -, hslug⟩ := hreveals.nextVariant_ok hnext
      exact ⟨_, hle, rfl, hslug ▸ hmem⟩
    · rintro ⟨n, hn, h, hmem⟩
      obtain rfl : suffixValue v.digits = n := Option.some.inj h
      cases hnext : nextVariant base (some v.slug) with
      | ok next => exact ⟨next, hnext, (hreveals.nextVariant_ok hnext).2.2 ▸ hmem⟩
      | error cause => exact absurd ⟨hn, hcheck _ hmem⟩ (hreveals.nextVariant_error hnext).1

theorem rung_last_not_mem {slugs : List String} {n : Nat}
    (h : (numbers base slugs).Pairwise (· ≤ ·)) (hn : (numbers base slugs).getLast? = some n) :
    rung base (n + 1) ∉ slugs := by
  intro hmem
  obtain ⟨older, hnumbers⟩ := List.getLast?_eq_some_iff.mp hn
  have hsucc : n + 1 ∈ numbers base slugs :=
    mem_numbers.mpr ⟨_, hmem, _, suffix?_write base (n + 1), suffixValue_write (n + 1)⟩
  rw [hnumbers] at h hsucc
  rcases List.mem_append.mp hsucc with hold | hlast
  · have := (List.pairwise_append.mp h).2.2 _ hold n List.mem_cons_self
    omega
  · have := List.mem_singleton.mp hlast
    omega

end Lookups

/-! ## Endings -/

section Settles

variable {policy : RetryPolicy} {base : String} {taken : String → Prop} {latest : Option String}
  {x : Ending} (h : Settles policy base taken latest x)
include h

/-- **A conflict is the answer** if the slug is taken and the variant after the latest one is taken
too. -/
theorem Settles.status_conflict (hretries : 0 < policy.retries.toNat)
    (hcount : policy.retries.toNat + 1 < UInt32.size) :
    x.status = 409 ↔ taken base ∧ ∃ next, nextVariant base latest = .ok next ∧ taken next.slug := by
  cases h with
  | free hbase => simp [hbase]
  | refused hbase hnone => omega
  | unresolved hbase _ hnext =>
    refine ⟨fun hstatus => ?_, fun ⟨_, next, hnext', _⟩ => ?_⟩
    · exact absurd (ErrorKind.eq_slugTaken_of_status hstatus) (nextVariant_error_kind hnext)
    · cases hnext.symm.trans hnext'
  | replaced hbase _ hnext hfree => simp [hnext, hfree]
  | stuck hbase _ hnext htaken hattempt => simp [hbase, hnext, htaken]
  | uncounted hbase hnext htaken hsize => omega

/-- **A failure of the service is the answer** if the slug is taken and the latest variant has a
number after which there is none. -/
theorem Settles.status_internal (hlatest : ∀ slug, latest = some slug →
    ∃ ds, suffix? base slug = some ds)
    (hcount : ∀ next, nextVariant base latest = .ok next → taken next.slug →
      policy.retries.toNat + 1 < UInt32.size) :
    x.status = 500 ↔ taken base ∧ 0 < policy.retries.toNat ∧ Exhausted base latest := by
  rw [← status_nextVariant hlatest]
  cases h with
  | free hbase => simp [hbase]
  | refused hbase hnone => simp [hnone]
  | unresolved hbase hretries hnext => simp [hbase, hretries, hnext]
  | replaced hbase _ hnext hfree => simp [hnext]
  | stuck hbase _ hnext htaken hattempt => simp [hnext]
  | uncounted hbase hnext htaken hsize =>
    have := hcount _ hnext htaken
    omega

end Settles

/-! ## What is stored -/

/-- The slugs of a user's loglines, oldest first. -/
def Tables.loglineSlugs (t : Tables) (user : Int) : List String :=
  (t.loglines.rows.filter (·.userId = user)).map (·.slug)

/-- The slugs of all story plans, oldest first. -/
def Tables.planSlugs (t : Tables) : List String := t.reservations.rows.map (·.slug)

section Stored

variable {w : Conditions}

theorem Loglines.settles (hw : w.Calm) {row : NewLogline} (hrow : row.texts.any holdsNul = false)
    (policy : RetryPolicy) (t : Tables) (n : Nat) :
    Settles policy row.slug (· ∈ t.loglineSlugs row.userId)
      (t.latestLogline? row.userId row.slug policy.order)
      (ending Logline.slug ((createLogline policy row).run (Database.under w) (t, n)).1) := by
  have h := (keptIn_loglines hw).settles hrow policy t n
  have htaken :
    (fun slug => (⟨slug, Candidate.scope row⟩ : Registry.Entry) ∈ t.loglines.rows.map
    Logline.entry) =
      (· ∈ t.loglineSlugs row.userId) := by
    funext slug
    simp [Tables.loglineSlugs, Logline.entry, Candidate.scope, and_assoc, and_comm, and_left_comm]
  have hlatest : latestVariant? (Candidate.slug row) policy.order
      (t.loglines.stamped Logline.entry Logline.stamp (Candidate.scope row)) =
        t.latestLogline? row.userId row.slug policy.order := by
    simp [Tables.latestLogline?, Table.stamped, Logline.entry, Candidate.scope, Candidate.slug]
  rw [htaken, hlatest] at h
  rw [createLogline, Prog.run_interpret]
  exact h

theorem StoryPlans.settles (hw : w.Calm) {row : NewStoryPlan}
    (hrow : row.texts.any holdsNul = false) (policy : RetryPolicy) (t : Tables) (n : Nat) :
    Settles policy row.slug (· ∈ t.planSlugs) (t.latestPlan? row.slug policy.order)
      (ending StoryPlan.slug ((createStoryPlan policy row).run (Database.under w) (t, n)).1) := by
  have h := (keptIn_plans hw).settles hrow policy t n
  have htaken : (fun slug => (⟨slug, Candidate.scope row⟩ : Registry.Entry) ∈
      t.reservations.rows.map SlugReservation.entry) = (· ∈ t.planSlugs) := by
    funext slug
    simp [Tables.planSlugs, SlugReservation.entry, Candidate.scope]
  have hlatest : latestVariant? (Candidate.slug row) policy.order
      (t.reservations.stamped SlugReservation.entry SlugReservation.stamp (Candidate.scope row)) =
        t.latestPlan? row.slug policy.order := by
    simp [Tables.latestPlan?, Table.stamped, SlugReservation.entry, Candidate.scope, Candidate.slug]
  rw [htaken, hlatest] at h
  rw [createStoryPlan, Prog.run_interpret]
  exact h

theorem Loglines.ending_unstorable {row : NewLogline} (hrow : row.texts.any holdsNul = true)
    (policy : RetryPolicy) (t : Tables) (n : Nat) :
    ending Logline.slug ((createLogline policy row).run (Database.under w) (t, n)).1 =
      .insertFailed row.slug 1 .storeFailed := by
  have hinsert : ((loglineIntake (.insert row)).run (Database.under w) (t, n)).1 =
      .error (insertError "Logline" row.slug .unstorableText) := by
    have hexecute : (Database.under w (.insertLogline row) (t, n)).1 = .error .unstorableText := by
      change (Database.execute .insertLogline row.texts [] (fun now => Tables.insertLogline now row)
        ⟨t, w.time n, w.outages n⟩).1 = _
      rw [Database.execute, if_pos hrow]
    rw [loglineIntake, query, Prog.ask_bind, Prog.run_ask, hexecute]
    rfl
  rw [createLogline, Prog.run_interpret, Storyline.create, attemptFrom_eq, Prog.run_ask, hinsert]
  cases policy.retries.toNat <;> rfl

theorem Loglines.conflict_iff (hw : w.Calm) {row : NewLogline}
    (hrow : row.texts.any holdsNul = false) {t : Tables} {now : Timestamp} (ht : t.WellFormed)
    (hsorted : t.loglines.Chronological Logline.stamp now) (n : Nat) :
    let slugs := t.loglineSlugs row.userId
    (ending Logline.slug ((createLogline {} row).run (Database.under w) (t, n)).1).status = 409 ↔
      row.slug ∈ slugs ∧ ∃ n < maxNumber, (numbers row.slug slugs).getLast? = some n ∧
        rung row.slug (n + 1) ∈ slugs := by
  intro slugs
  let stamped := (t.loglines.rows.filter (·.userId = row.userId)).map fun row =>
    (row.slug, row.stamp)
  have hslugs : stamped.map Prod.fst = slugs := by
    simp [stamped, slugs, Tables.loglineSlugs]
  have hrising : stamped.Pairwise fun a b => a.2.Older b.2 :=
    List.pairwise_map.mpr (hsorted.sorted.filter _)
  have hcheck : ∀ slug ∈ slugs, Slug.check slug = .ok () := by
    intro slug hslug
    obtain ⟨old, hold, rfl⟩ := List.mem_map.mp hslug
    exact (ht.loglines old (List.mem_of_mem_filter hold)).slug
  have hnext : (∃ next, nextVariant row.slug (latestVariant? row.slug .newest stamped) = .ok next ∧
      next.slug ∈ stamped.map Prod.fst) ↔ _ := next_taken_newest hrising (hslugs ▸ hcheck)
  rw [hslugs] at hnext
  rw [(settles hw hrow {} t n).status_conflict (by decide) (by decide), ← hnext]
  rfl

/-- The attempts of a creation can be counted to the end: they are fewer than there are numbers, or
the second is the last. -/
def RetryPolicy.Counted (policy : RetryPolicy) : Prop :=
  policy.order = .highest ∨ policy.retries.toNat + 1 < UInt32.size

theorem RetryPolicy.Counted.of_taken {policy : RetryPolicy} (h : policy.Counted) {base : String}
    {slugs : List (String × Stamp)} {next : NumberedSlug}
    (hnext : nextVariant base (latestVariant? base policy.order slugs) = .ok next)
    (htaken : next.slug ∈ slugs.map Prod.fst) : policy.retries.toNat + 1 < UInt32.size := by
  rcases h with horder | hretries
  · rw [horder] at hnext
    exact absurd htaken (next_free_highest hnext)
  · exact hretries

theorem Loglines.internal_iff (hw : w.Calm) {row : NewLogline}
    (hrow : row.texts.any holdsNul = false) {policy : RetryPolicy} (hpolicy : policy.Counted)
    (t : Tables) (n : Nat) :
    (ending Logline.slug ((createLogline policy row).run (Database.under w) (t, n)).1).status =
      500 ↔
      row.slug ∈ t.loglineSlugs row.userId ∧ 0 < policy.retries.toNat ∧
        Exhausted row.slug (t.latestLogline? row.userId row.slug policy.order) := by
  refine (settles hw hrow policy t n).status_internal (fun _ => suffix?_latestVariant?) ?_
  intro next hnext htaken
  refine hpolicy.of_taken hnext ?_
  rw [List.map_map]
  exact htaken

theorem StoryPlans.internal_iff (hw : w.Calm) {row : NewStoryPlan}
    (hrow : row.texts.any holdsNul = false) {policy : RetryPolicy} (hpolicy : policy.Counted)
    (t : Tables) (n : Nat) :
    (ending StoryPlan.slug ((createStoryPlan policy row).run (Database.under w) (t, n)).1).status =
      500 ↔
      row.slug ∈ t.planSlugs ∧ 0 < policy.retries.toNat ∧
        Exhausted row.slug (t.latestPlan? row.slug policy.order) := by
  refine (settles hw hrow policy t n).status_internal (fun _ => suffix?_latestVariant?) ?_
  intro next hnext htaken
  refine hpolicy.of_taken hnext ?_
  rw [List.map_map]
  exact htaken

end Stored

section Requests

variable {s : Service} {w : Conditions}

/-- **A request for a logline is answered as a conflict** under the default policy if its slug is
taken and, where the caller's variant stored last has number `n`, the variant with number `n + 1` is
taken too. So this does not happen as long as the numbers of the caller's variants do not fall. -/
theorem logline_conflicts (hpolicy : s.policy = {}) (hw : w.Calm) (htime : Monotone w.time)
    (requests : List Request) {r : Request} (hmethod : r.method = .post)
    (hplace : Place.ofTarget? r.target = some .loglines) :
    let x := session s w requests
    let slugs (user : Int) := x.tables.loglineSlugs user
    ((x.answer s w r).status = 409 ↔ ∃ row, Loglines.requested r = .ok row ∧
      row.texts.any holdsNul = false ∧
      row.slug ∈ slugs row.userId ∧ ∃ n < maxNumber,
        (numbers row.slug (slugs row.userId)).getLast? = some n ∧
          rung row.slug (n + 1) ∈ slugs row.userId) ∧
    ∀ row, Loglines.requested r = .ok row → (numbers row.slug (slugs row.userId)).Pairwise (· ≤ ·) →
      (x.answer s w r).status ≠ 409 := by
  intro x slugs
  have hconflict : (x.answer s w r).status = 409 ↔ ∃ row, Loglines.requested r = .ok row ∧
      row.texts.any holdsNul = false ∧ row.slug ∈ slugs row.userId ∧ ∃ n < maxNumber,
        (numbers row.slug (slugs row.userId)).getLast? = some n ∧
          rung row.slug (n + 1) ∈ slugs row.userId := by
    rw [Loglines.status_create hmethod hplace]
    cases hrequested : Loglines.requested r with
    | error denial =>
      have hearly := Loglines.requested_early hrequested
      simp only [reduceCtorEq, false_and, exists_false, iff_false]
      intro hstatus
      rw [Denial.Early, hstatus] at hearly
      exact absurd hearly (by decide)
    | ok row =>
      simp only [Except.ok.injEq, exists_eq_left']
      cases hnul : row.texts.any holdsNul with
      | true =>
        rw [Loglines.ending_unstorable hnul]
        simp [ErrorKind.status]
      | false =>
        have hsorted := (session_chronological (s := s) htime requests).loglines
        have hiff := Loglines.conflict_iff hw hnul (session_wellFormed requests) hsorted x.queries
        rw [hpolicy]
        simp only [true_and]
        exact hiff
  refine ⟨hconflict, fun row hrequested hrising hstatus => ?_⟩
  obtain ⟨row', hrequested', -, -, n, -, hlast, hmem⟩ := hconflict.mp hstatus
  obtain rfl : row = row' := Except.ok.inj (hrequested.symm.trans hrequested')
  exact rung_last_not_mem hrising hlast hmem

/-- The user has `hero`, `hero-3` and, stored last, `hero-2`. -/
theorem logline_conflicts_skipped :
    let post (slug : String) : Request := ⟨.post, "/api/v1/loglines",
      [.ofText "x-user-id" "1", .ofText "content-type" "application/json"],
      "[\"" ++ slug ++ "\",\"A\",\"c\"]"⟩
    let w : Conditions := ⟨fun _ => 0, fun _ => []⟩
    ((session {} w [post "hero", post "hero-3", post "hero-2"]).answer
      {} w (post "hero")).status = 409 ∧
      ((session {} w [post "hero", post "hero-2", post "hero-3"]).answer
        {} w (post "hero")).status ≠ 409 := by
  intro post w
  have hw : w.Calm := fun _ => rfl
  have hplace : Place.ofTarget? (post "hero").target = some .loglines := by decide +kernel
  have hrequested : Loglines.requested (post "hero") = .ok ⟨1, "hero", "A", "c"⟩ := by
    decide +kernel
  constructor
  · refine (logline_conflicts rfl hw monotone_const _ rfl hplace).1.mpr ⟨_, hrequested, ?_⟩
    exact ⟨by decide, by decide +kernel, 2, by decide, by decide +kernel, by decide +kernel⟩
  · refine (logline_conflicts rfl hw monotone_const _ rfl hplace).2 _ hrequested ?_
    decide +kernel

/-- So a user can have a request answered as a conflict that was not refused for its own slug. -/
theorem not_conflict_free :
    ¬∀ (w : Conditions) (requests : List Request) (r : Request), w.Calm → Monotone w.time →
      (∀ r' ∈ requests ++ [r], r'.method = .post ∧ Place.ofTarget? r'.target = some .loglines) →
      ((session {} w requests).answer {} w r).status ≠ 409 := by
  intro h
  let post (slug : String) : Request := ⟨.post, "/api/v1/loglines",
    [.ofText "x-user-id" "1", .ofText "content-type" "application/json"],
    "[\"" ++ slug ++ "\",\"A\",\"c\"]"⟩
  refine h ⟨fun _ => 0, fun _ => []⟩ [post "hero", post "hero-3", post "hero-2"] (post "hero")
    (fun _ => rfl)
    monotone_const ?_ ?_
  · decide +kernel
  · decide +kernel

/-- **A request for a logline or a story plan is answered as a failure of the service**, if its
texts can be stored, where its slug is taken and the latest variant has a number after which there
is none. Under any policy that counts its attempts there is no other case. -/
theorem creations_internal (hpolicy : s.policy.Counted) (hw : w.Calm) (requests : List Request)
    {r : Request} (hmethod : r.method = .post) :
    let x := session s w requests
    let status := (x.answer s w r).status
    (Place.ofTarget? r.target = some .loglines →
      (∀ row, Loglines.requested r = .ok row → row.texts.any holdsNul = false) →
      (status = 500 ↔ ∃ row, Loglines.requested r = .ok row ∧
        row.slug ∈ x.tables.loglineSlugs row.userId ∧
        0 < s.policy.retries.toNat ∧
          Exhausted row.slug (x.tables.latestLogline? row.userId row.slug s.policy.order))) ∧
    (Place.ofTarget? r.target = some .plans →
      (∀ row, StoryPlans.requested r = .ok row → row.texts.any holdsNul = false) →
      (status = 500 ↔ ∃ row, StoryPlans.requested r = .ok row ∧ row.slug ∈ x.tables.planSlugs ∧
        0 < s.policy.retries.toNat ∧
          Exhausted row.slug (x.tables.latestPlan? row.slug s.policy.order))) := by
  intro x status
  have hearly : ∀ {denial : Denial}, denial.Early → denial.response.status ≠ 500 := by
    intro denial h hstatus
    rw [Denial.Early, hstatus] at h
    exact absurd h (by decide)
  constructor
  · intro hplace hstorable
    have hstatus : status = _ := Loglines.status_create hmethod hplace x
    rw [hstatus]
    cases hrequested : Loglines.requested r with
    | error denial => simp [hearly (Loglines.requested_early hrequested)]
    | ok row =>
      simp only [Except.ok.injEq, exists_eq_left']
      exact Loglines.internal_iff hw (hstorable row hrequested) hpolicy x.tables x.queries
  · intro hplace hstorable
    have hstatus : status = _ := StoryPlans.status_create hmethod hplace x
    rw [hstatus]
    cases hrequested : StoryPlans.requested r with
    | error denial => simp [hearly (StoryPlans.requested_early hrequested)]
    | ok row =>
      simp only [Except.ok.injEq, exists_eq_left']
      exact StoryPlans.internal_iff hw (hstorable row hrequested) hpolicy x.tables x.queries

/-- A user has stored the variant with the largest number. Among story plans any user may do so, and
the number may be larger still. -/
theorem creations_internal_largest :
    let headers : List Header :=
      [.ofText "x-user-id" "1", .ofText "content-type" "application/json"]
    let logline (slug : String) : Request :=
      ⟨.post, "/api/v1/loglines", headers, "[\"" ++ slug ++ "\",\"A\",\"c\"]"⟩
    let plan (slug : String) : Request :=
      ⟨.post, "/api/v1/story-plans", headers, "[\"" ++ slug ++ "\",\"P\",null,[[\"k\",\"K\"]]]"⟩
    let w : Conditions := ⟨fun _ => 0, fun _ => []⟩
    let s : Service := { policy := ⟨3, .highest⟩ }
    ((session {} w [logline "hero", logline "hero-4294967295"]).answer
      {} w (logline "hero")).status = 500 ∧
      ((session s w [plan "hero", plan "hero-99999999999"]).answer s w (plan "hero")).status =
        500 := by
  intro headers logline plan w s
  have hw : w.Calm := fun _ => rfl
  have hlogline : Loglines.requested (logline "hero") = .ok ⟨1, "hero", "A", "c"⟩ := by
    decide +kernel
  have hplan : StoryPlans.requested (plan "hero") = .ok ⟨"hero", "P", none,
      [⟨"k", "K", [], "", none, none⟩]⟩ := by
    decide +kernel
  constructor
  · refine ((creations_internal (.inr (by decide)) hw _ rfl).1 (by decide +kernel) ?_).mpr ⟨_,
      hlogline, ?_⟩
    · intro row hrow
      obtain rfl := Except.ok.inj (hlogline.symm.trans hrow)
      decide
    · exact ⟨by decide +kernel, by decide, "hero-4294967295", "4294967295".toList,
        by decide +kernel, by decide +kernel, by decide +kernel⟩
  · refine ((creations_internal (.inl rfl) hw _ rfl).2 (by decide +kernel) ?_).mpr ⟨_, hplan, ?_⟩
    · intro row hrow
      obtain rfl := Except.ok.inj (hplan.symm.trans hrow)
      decide
    · exact ⟨by decide +kernel, by decide, "hero-99999999999", "99999999999".toList,
        by decide +kernel, by decide +kernel, by decide +kernel⟩

/-- So a user can have a request answered as a failure of the service, though its texts can be
stored. -/
theorem not_failure_free :
    ¬∀ (w : Conditions) (requests : List Request) (r : Request) (row : NewLogline), w.Calm →
      r.method = .post →
      Place.ofTarget? r.target = some .loglines → Loglines.requested r = .ok row →
        row.texts.any holdsNul = false →
      ((session {} w requests).answer {} w r).status ≠ 500 := by
  intro h
  let post (slug : String) : Request := ⟨.post, "/api/v1/loglines",
    [.ofText "x-user-id" "1", .ofText "content-type" "application/json"],
    "[\"" ++ slug ++ "\",\"A\",\"c\"]"⟩
  refine h ⟨fun _ => 0, fun _ => []⟩ [post "hero", post "hero-4294967295"] (post "hero") ⟨1,
    "hero", "A", "c"⟩
    (fun _ => rfl) rfl ?_ ?_ ?_ ?_
  · decide +kernel
  · decide +kernel
  · decide
  · decide +kernel

end Requests

end Storyline
