import Storyline.Proofs.Families
import Storyline.Proofs.Standstill

/-!
# How far variants go

Creations one after the other that ask for one slug are given the slug and its variants in turn,
without a gap, until a number cannot be carried or a variant would be too long. Creations for other
slugs and in other scopes may come in between.

* `Registry.after`: a registry after creations one after the other;
* `Registry.Stage.run`: what a creation by itself may store;
* `Slug.HasRoom`: the variants that there are;
* `Registry.Climbed`: what holds of a scope after some creations, with `Registry.Climbed.asks` and
  `Registry.Climbed.elsewhere`;
* `Registry.create_gapFree`: how the next creation ends.
-/

namespace Storyline

open Slug

/-- The slug that is given `n`-th is the base itself or has a number of 32 bits that fits behind the
base. -/
def Slug.HasRoom (base : String) (n : Nat) : Prop := n = 0 ∨ n ≤ maxNumber ∧ Fits base n

instance (base : String) (n : Nat) : Decidable (HasRoom base n) :=
  inferInstanceAs (Decidable (n = 0 ∨ n ≤ maxNumber ∧ Fits base n))

theorem Slug.HasRoom.mono {base : String} {m n : Nat} (h : HasRoom base n) (hm : m ≤ n) :
    HasRoom base m := by
  rcases h with rfl | ⟨hn, hfits⟩
  · exact .inl (Nat.le_zero.mp hm)
  · exact .inr ⟨Nat.le_trans hm hn, hfits.mono hm⟩

namespace Registry

variable {r : Registry} {base : String} {scope : Scope} {policy : RetryPolicy}

/-! ## Creations one after the other -/

/-- The registry after creations one after the other. -/
def after (jobs : List Job) (r : Registry) : Registry :=
  jobs.foldl (fun r job => ((create (ε := Entity) job.policy job.candidate).run handle r).2) r

theorem after_concat (jobs : List Job) (job : Job) (r : Registry) : after (jobs ++ [job]) r =
    ((create (ε := Entity) job.policy job.candidate).run handle (after jobs r)).2 := by
  rw [after, List.foldl_append]
  rfl

/-- **A creation by itself** leaves the rows as they are, or stores one slug that it may want. -/
theorem Stage.run {wanted : String → Prop} {x : Creation} (h : Stage base scope wanted True x)
    (hr : r.Reliable)
    (hnext : ∀ latest next, nextVariant base latest = .ok next → wanted next.slug) :
    let r' := (x.run handle r).2
    r'.Reliable ∧
      (r'.rows = r.rows ∨ ∃ slug, wanted slug ∧ r'.rows = r.rows ++ [⟨slug, scope⟩]) := by
  induction x generalizing r with
  | done result => exact ⟨hr, .inl rfl⟩
  | ask c k ih =>
    rw [Prog.run_ask]
    have hreliable := hr.handle c
    rcases h.turn hr (fun _ _ _ => trivial) fun _ _ => hnext _ with
      ⟨hrows, h⟩ | ⟨slug, hw, -, hrows, hend⟩
    · obtain ⟨hr', hrows'⟩ := ih _ h hreliable
      rw [hrows] at hrows'
      exact ⟨hr', hrows'⟩
    · rw [hend, Prog.run_done]
      exact ⟨hreliable, .inr ⟨slug, hw, hrows⟩⟩

theorem run_create_rows (hr : r.Reliable) (policy : RetryPolicy) (e : Entry) :
    let r' := ((create (ε := Entity) policy e).run handle r).2
    r'.Reliable ∧ (r'.rows = r.rows ∨
      ∃ slug, (slug = e.slug ∨ ∃ n, slug = variant e.slug n) ∧
        r'.rows = r.rows ++ [⟨slug, e.scope⟩]) := by
  have hstage : Stage e.slug e.scope (fun slug => slug = e.slug ∨ ∃ n, slug = variant e.slug n) True
      (create policy e) := .inserting policy.order policy.retries.toNat 1 (.inl rfl)
  exact hstage.run hr fun latest next hnext => .inr ⟨next.number, (nextVariant_ok hnext).2.1⟩

/-! ## The next rung -/

section Next

variable {m : Nat} (hladder : family base (slugsOf r.rows scope) = ladder base m)
include hladder

theorem reveals_ladder (order : VariantOrder) :
    topNumber base (slugsOf r.rows scope) = m - 1 ∧
      Reveals base (m - 1) (latest? r.rows base scope order) := by
  have hnumbers : numbers base (slugsOf r.rows scope) = numbers base (ladder base m) := by
    rw [← numbers_family, hladder]
  have htop : topNumber base (slugsOf r.rows scope) = m - 1 := by
    rw [topNumber, hnumbers, ← topNumber, topNumber_ladder]
  refine ⟨htop, ?_⟩
  rw [← htop]
  cases order with
  | newest =>
    apply reveals_newest
    rw [hnumbers]
    exact pairwise_numbers_ladder base m
  | highest => exact reveals_highest r.rows base scope

/-- **The next creation that asks for the base** stores the next rung if there is one. Otherwise it
fails, and the rows stay as they are. -/
theorem run_create_ladder (hbase : Slug.check base = .ok ()) (hr : r.Reliable)
    (hretries : 1 ≤ policy.retries.toNat) :
    let (result, r') := (create (ε := Entity) policy (⟨base, scope⟩ : Entry)).run handle r
    (HasRoom base m ∧ result = .ok ⟨r.rows.length + 1, rung base m⟩ ∧
      r'.rows = r.rows ++ [⟨rung base m, scope⟩]) ∨
    (¬HasRoom base m ∧ r'.rows = r.rows ∧ ∃ cause, result = .error (.resolve base cause) ∧
      cause.kind = if maxNumber < m - 1 then .unreadableSuffix
        else if m - 1 = maxNumber then .internal else .invalid) := by
  obtain ⟨htop, hreveals⟩ := reveals_ladder hladder policy.order
  have hmem : base ∈ slugsOf r.rows scope ↔ 0 < m := by
    rw [← base_mem_family, hladder]
    exact (rung_mem_ladder : rung base 0 ∈ ladder base m ↔ 0 < m)
  rcases Nat.eq_zero_or_pos m with rfl | hm
  · have hfree : base ∉ slugsOf r.rows scope := fun h => absurd (hmem.mp h) (Nat.lt_irrefl 0)
    rw [run_create_free hr policy hfree]
    exact .inl ⟨.inl rfl, rfl, rfl⟩
  · have hsucc : m - 1 + 1 = m := Nat.sub_add_cancel hm
    have hroom : HasRoom base m ↔ m ≤ maxNumber ∧ Slug.check (rung base m) = .ok () := by
      rw [check_rung hbase hm]
      exact or_iff_right (by omega)
    cases hn : nextVariant base (latest? r.rows base scope policy.order) with
    | ok next =>
      obtain ⟨hle, hcheck, hslug⟩ := hreveals.nextVariant_ok hn
      rw [hsucc] at hle hcheck hslug
      have hfree : next.slug ∉ slugsOf r.rows scope := by
        have hnew := rung_top_not_mem base (slugsOf r.rows scope)
        rwa [htop, hsucc, ← hslug] at hnew
      rw [run_create_retry hr hretries (hmem.mpr hm) hn hfree, hslug]
      exact .inl ⟨hroom.mpr ⟨hle, hcheck⟩, rfl, rfl⟩
    | error cause =>
      obtain ⟨hnone, hkind⟩ := hreveals.nextVariant_error hn
      rw [hsucc] at hnone
      rw [run_create_failed hr hretries (hmem.mpr hm) hn]
      exact .inr ⟨mt hroom.mp hnone, rfl, cause, rfl, hkind⟩

end Next

/-! ## A scope after some creations -/

/-- A creation that asks for `base` in the scope, with one retry at least. -/
def Job.Asks (base : String) (scope : Scope) (job : Job) : Prop :=
  job.candidate = ⟨base, scope⟩ ∧ 1 ≤ job.policy.retries.toNat

/-- A creation in another scope, or for a slug that is not of the family of `base`, and `base` not
of its. -/
def Job.Elsewhere (base : String) (scope : Scope) (job : Job) : Prop :=
  job.candidate.scope ≠ scope ∨ job.candidate.slug ≠ base ∧ suffix? base job.candidate.slug = none ∧
    suffix? job.candidate.slug base = none

/-- The number of creations that ask for `base` in the scope. -/
def asked (base : String) (scope : Scope) (jobs : List Job) : Nat :=
  (jobs.filter (·.candidate = ⟨base, scope⟩)).length

/-- What holds after `k` creations that have asked for `base` in the scope: the family is a ladder
of as many rungs as there is room for. -/
structure Climbed (base : String) (scope : Scope) (k : Nat) (r : Registry) : Prop where
  reliable : r.Reliable
  ladder : ∃ m ≤ k, family base (slugsOf r.rows scope) = ladder base m ∧ (∀ j < m, HasRoom base j) ∧
    (m < k → ¬HasRoom base m)

variable {k : Nat} {job : Job}

theorem Climbed.asks (h : Climbed base scope k r) (hbase : Slug.check base = .ok ())
    (hjob : job.Asks base scope) :
    Climbed base scope (k + 1)
      ((create (ε := Entity) job.policy job.candidate).run handle r).2 := by
  obtain ⟨hcandidate, hretries⟩ := hjob
  obtain ⟨m, hm, hladder, hbelow, hfull⟩ := h.ladder
  have hrun := run_create_ladder hladder hbase h.reliable hretries
  rw [hcandidate]
  refine ⟨(run_create_rows h.reliable job.policy _).1, ?_⟩
  rcases hrun with ⟨hroom, -, hrows⟩ | ⟨hnone, hrows, -⟩
  · have heq : m = k := Nat.le_antisymm hm (Nat.le_of_not_lt fun hlt => hfull hlt hroom)
    refine ⟨m + 1, by omega, ?_, fun j hj => hroom.mono (Nat.le_of_lt_succ hj), by omega⟩
    have hslugs := slugsOf_append_self r.rows ⟨rung base m, scope⟩
    have hmember : family base [rung base m] = [rung base m] := by
      rw [family, List.filter_singleton, inFamily_rung]
      rfl
    rw [hrows, hslugs, family_append, hladder, hmember, ladder_succ]
  · rw [hrows]
    exact ⟨m, by omega, hladder, hbelow, fun _ => hnone⟩

theorem Job.Elsewhere.family (hjob : job.Elsewhere base scope) {slug : String}
    (hslug : slug = job.candidate.slug ∨ ∃ n, slug = variant job.candidate.slug n)
    (rows : List Entry) :
    family base (slugsOf (rows ++ [⟨slug, job.candidate.scope⟩]) scope) =
      family base (slugsOf rows scope) := by
  by_cases hscope : job.candidate.scope = scope
  · obtain ⟨hne, hsuffix, hbase⟩ := hjob.resolve_left fun h => h hscope
    have hout := not_inFamily_renamed (inFamily_eq_false.mpr ⟨hne, hsuffix⟩) hbase hslug
    have hslugs := slugsOf_append_self rows ⟨slug, job.candidate.scope⟩
    have hnil : Slug.family base [slug] = [] := by
      rw [Slug.family, List.filter_singleton, hout]
      rfl
    rw [hscope] at hslugs ⊢
    rw [hslugs, family_append, hnil, List.append_nil]
  · rw [slugsOf_append_of_ne (e := ⟨slug, job.candidate.scope⟩) hscope]

theorem Climbed.elsewhere (h : Climbed base scope k r) (hjob : job.Elsewhere base scope) :
    Climbed base scope k ((create (ε := Entity) job.policy job.candidate).run handle r).2 := by
  obtain ⟨hr, hrows⟩ := run_create_rows h.reliable job.policy job.candidate
  refine ⟨hr, ?_⟩
  rcases hrows with hrows | ⟨slug, hslug, hrows⟩
  · rw [hrows]
    exact h.ladder
  · rw [hrows, hjob.family hslug]
    exact h.ladder

theorem asked_concat (base : String) (scope : Scope) (jobs : List Job) (job : Job) :
    asked base scope (jobs ++ [job]) =
      asked base scope jobs + if job.candidate = ⟨base, scope⟩ then 1 else 0 := by
  rw [asked, List.filter_append, List.length_append, ← asked, List.filter_singleton]
  by_cases hjob : job.candidate = ⟨base, scope⟩
  · rw [decide_eq_true hjob, if_pos hjob]
    rfl
  · rw [decide_eq_false hjob, if_neg hjob]
    rfl

theorem Job.Elsewhere.ne (h : job.Elsewhere base scope) : job.candidate ≠ ⟨base, scope⟩ := by
  intro heq
  rw [Job.Elsewhere, heq] at h
  rcases h with h | h
  · exact h rfl
  · exact h.1 rfl

/-- **A scope after any creations** is as high as the number of those that asked for the base
says. -/
theorem climbed_after (hbase : Slug.check base = .ok ()) (hr : r.Reliable)
    (hnone : ∀ slug ∈ slugsOf r.rows scope, slug ≠ base ∧ suffix? base slug = none)
    {jobs : List Job} (hjobs : ∀ job ∈ jobs, job.Asks base scope ∨ job.Elsewhere base scope) :
    Climbed base scope (asked base scope jobs) (after jobs r) := by
  induction jobs using List.reverseRecOn with
  | nil =>
    have hnil : family base (slugsOf r.rows scope) = [] := by
      refine List.filter_eq_nil_iff.mpr fun slug hslug => ?_
      rw [inFamily_eq_false.mpr (hnone slug hslug)]
      exact Bool.false_ne_true
    exact ⟨hr, 0, Nat.le_refl 0, hnil, fun j hj => absurd hj (Nat.not_lt_zero j),
      fun h => absurd h (Nat.lt_irrefl _)⟩
  | append_singleton jobs job ih =>
    have hpast := ih fun job hjob => hjobs job (List.mem_append_left _ hjob)
    rw [after_concat, asked_concat]
    rcases hjobs job (List.mem_append_right _ List.mem_cons_self) with hjob | hjob
    · rw [if_pos hjob.1]
      exact hpast.asks hbase hjob
    · rw [if_neg hjob.ne]
      exact hpast.elsewhere hjob

/-- **Variants are given without a gap, as far as they go.** After `k` creations that asked for a
slug in a scope that had none of its family, the next one is given the slug itself for `k = 0`, and
otherwise its variant with number `k`, as long as that has 32 bits and fits behind the slug. From
then on a creation fails to find a further variant, for the one reason or the other, and the rows
stay as they are. Creations in other scopes, and in this scope for slugs that are not of the family
nor the slug of theirs, do not matter. -/
theorem create_gapFree (hbase : Slug.check base = .ok ()) (hr : r.Reliable)
    (hnone : ∀ slug ∈ slugsOf r.rows scope, slug ≠ base ∧ suffix? base slug = none)
    {jobs : List Job} (hjobs : ∀ job ∈ jobs, job.Asks base scope ∨ job.Elsewhere base scope)
    (policy : RetryPolicy) (hretries : 1 ≤ policy.retries.toNat) :
    let k := asked base scope jobs
    let before := after jobs r
    let ended := (create (ε := Entity) policy (⟨base, scope⟩ : Entry)).run handle before
    (HasRoom base k → ended.1 = .ok ⟨before.rows.length + 1, rung base k⟩ ∧
      ended.2.rows = before.rows ++ [⟨rung base k, scope⟩]) ∧
    (¬HasRoom base k → ended.2.rows = before.rows ∧
      ∃ cause, ended.1 = .error (.resolve base cause) ∧
      cause.kind = if Fits base maxNumber then .internal else .invalid) := by
  intro k before ended
  have hclimbed : Climbed base scope k before := climbed_after hbase hr hnone hjobs
  obtain ⟨m, hm, hladder, hbelow, hfull⟩ := hclimbed.ladder
  rcases run_create_ladder hladder hbase hclimbed.reliable hretries with
    ⟨hroom, hresult, hrows⟩ | ⟨hfull', hrows, cause, hresult, hkind⟩
  · have heq : m = k := Nat.le_antisymm hm (Nat.le_of_not_lt fun hlt => hfull hlt hroom)
    subst heq
    exact ⟨fun _ => ⟨hresult, hrows⟩, fun h => absurd hroom h⟩
  · refine ⟨fun h => absurd (h.mono hm) hfull', fun _ => ⟨hrows, cause, hresult, ?_⟩⟩
    -- the last rung has room, the next one has not: which bound is in the way shows at the largest
    -- number
    have hpos : m ≠ 0 := fun h => hfull' (.inl h)
    have hlast : m - 1 = 0 ∨ m - 1 ≤ maxNumber ∧ Fits base (m - 1) := hbelow (m - 1) (by omega)
    have hle : m - 1 ≤ maxNumber := by
      rcases hlast with h | h
      · exact h ▸ Nat.zero_le _
      · exact h.1
    rw [hkind, if_neg (Nat.not_lt.mpr hle)]
    by_cases hmax : m - 1 = maxNumber
    · have hfits : Fits base maxNumber := by
        rcases hlast with h | h
        · exact absurd (h.symm.trans hmax) (by decide)
        · exact hmax ▸ h.2
      rw [if_pos hmax, if_pos hfits]
    · have hnot : ¬Fits base maxNumber := fun h => hfull' (.inr ⟨by omega, h.mono (by omega)⟩)
      rw [if_neg hmax, if_neg hnot]

/-- The variants of `act` go on after `act-1`, whatever is stored as `act-1-1` or for another user.
A slug of 126 bytes has variants up to number 9. -/
theorem create_gapFree_ends :
    let ask (slug : String) (user : Int) : Job := ⟨{}, ⟨slug, .user user⟩⟩
    let acts := [ask "act" 1, ask "act-1-1" 1, ask "act" 1, ask "act-1-1" 1, ask "act" 2]
    let long := String.ofList (List.replicate 126 'a')
    let longs := List.replicate 10 (ask long 1)
    ((create (ε := Entity) {} (⟨"act", .user 1⟩ : Entry)).run handle (after acts {})).2.rows =
      (after acts {}).rows ++ [⟨"act-2", .user 1⟩] ∧
    ∃ cause,
      ((create (ε := Entity) ⟨3, .highest⟩ (⟨long, .user 1⟩ : Entry)).run handle
        (after longs {})).1 = .error (.resolve long cause) ∧ cause.kind = .invalid := by
  intro ask acts long longs
  have hr : Reliable {} := ⟨rfl, rfl, rfl⟩
  have hnone : ∀ base, ∀ slug ∈ slugsOf ({} : Registry).rows (.user 1), slug ≠ base ∧
      suffix? base slug = none :=
    fun base slug h => absurd h List.not_mem_nil
  constructor
  · have hact : (ask "act" 1).Asks "act" (.user 1) := ⟨rfl, by decide⟩
    have hbranch : (ask "act-1-1" 1).Elsewhere "act" (.user 1) := .inr (by decide +kernel)
    have hother : (ask "act" 2).Elsewhere "act" (.user 1) := .inl (by decide)
    have hjobs : ∀ job ∈ acts, job.Asks "act" (.user 1) ∨ job.Elsewhere "act" (.user 1) := by
      simp only [acts, List.forall_mem_cons, List.not_mem_nil, false_imp_iff,
        implies_true, and_true]
      exact ⟨.inl hact, .inr hbranch, .inl hact, .inr hbranch, .inr hother⟩
    have hrung : rung "act" (asked "act" (.user 1) acts) = "act-2" := by decide +kernel
    have h := create_gapFree (by decide +kernel) hr (hnone "act") hjobs {} (by decide)
    rw [← hrung]
    exact (h.1 (by decide +kernel)).2
  · have hjobs : ∀ job ∈ longs, job.Asks long (.user 1) ∨ job.Elsewhere long (.user 1) := by
      intro job hjob
      rw [List.eq_of_mem_replicate hjob]
      exact .inl ⟨rfl, by decide⟩
    have h := create_gapFree (by decide +kernel) hr (hnone long) hjobs ⟨3, .highest⟩ (by decide)
    obtain ⟨-, cause, hresult, hkind⟩ := h.2 (by decide +kernel)
    exact ⟨cause, hresult, hkind.trans (by decide +kernel)⟩

end Registry

end Storyline
