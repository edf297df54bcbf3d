import Storyline.Proofs.Mirror

/-!
# Creations that have the tables for themselves

While a creation has the tables for itself, the rows stay as they are until it stores its own. So
each of its lookups finds the same variant, and the rows tell beforehand how it will end.

* `Settles`: the ways in which a creation can end, by the slugs that are taken and the latest
  variant;
* `KeptIn.ending_free`, `KeptIn.ending_refused`, `KeptIn.ending_taken`: one attempt;
* `KeptIn.ending_stuck`: the attempts under a variant that is taken;
* `KeptIn.settles`: a creation ends in one of these ways.
-/

namespace Storyline

open Registry (Entry entryOf)

/-- How a creation ends that asks for `base` and has a store for itself. The slugs that are `taken`
stay what they are meanwhile, and so does the `latest` variant. -/
inductive Settles (policy : RetryPolicy) (base : String) (taken : String → Prop)
    (latest : Option String) :
    Ending → Prop
  /-- The slug is free. -/
  | free (hbase : ¬taken base) : Settles policy base taken latest (.stored base)
  /-- The slug is taken, and no variant may be tried. -/
  | refused (hbase : taken base) (hretries : policy.retries.toNat = 0) :
      Settles policy base taken latest (.insertFailed base 1 .slugTaken)
  /-- The slug is taken, and there is no next variant. -/
  | unresolved {cause : Error} (hbase : taken base) (hretries : 0 < policy.retries.toNat)
      (hnext : nextVariant base latest = .error cause) :
      Settles policy base taken latest (.resolveFailed base cause.kind)
  /-- The slug is taken, and the next variant is free. -/
  | replaced {next : NumberedSlug} (hbase : taken base) (hretries : 0 < policy.retries.toNat)
      (hnext : nextVariant base latest = .ok next) (hfree : ¬taken next.slug) :
      Settles policy base taken latest (.stored next.slug)
  /-- The slug is taken, and so is the next variant, which is tried until no retry is left. -/
  | stuck {next : NumberedSlug} {attempt : UInt32} (hbase : taken base)
      (hretries : 0 < policy.retries.toNat) (hnext : nextVariant base latest = .ok next)
      (htaken : taken next.slug) (hattempt : attempt.toNat = policy.retries.toNat + 1) :
      Settles policy base taken latest (.insertFailed next.slug attempt .slugTaken)
  /-- The same, with more retries than can be counted. -/
  | uncounted {next : NumberedSlug} (hbase : taken base)
      (hnext : nextVariant base latest = .ok next) (htaken : taken next.slug)
      (hretries : policy.retries.toNat + 1 = UInt32.size) :
      Settles policy base taken latest (.uncounted base)

section Attempts

variable {κ ε ρ : Type} [Candidate κ] {h : Prog.Handler (CandidateStore κ ε) (Tables × Nat)}
  {slug : ε → String} {storable : κ → Prop} {entry : ρ → Entry} {stamp : ρ → Stamp}
  {table : Tables → Table ρ} {w : Conditions} (hk : KeptIn h slug storable entry stamp table w)
  {t : Tables} {n : Nat} {d d₀ : κ} {order : VariantOrder} {base : String} {scope : Scope}
  {retries : Nat} {attempt : UInt32}

theorem Table.stamped_congr {t t' : Table ρ} (h : t.SameRows t') (scope : Scope) :
    t'.stamped entry stamp scope = t.stamped entry stamp scope := by
  rw [stamped, stamped, h.rows]

/-! ## One attempt -/

include hk

theorem KeptIn.ending_free (hd : storable d) (hfree : entryOf d ∉ (table t).rows.map entry) :
    ending slug ((attemptFrom base scope order retries attempt d).run h (t, n)).1 =
      .stored (Candidate.slug d) := by
  obtain ⟨entity, row, t', hrun, hslug, -⟩ := hk.stores t n hd hfree
  rw [attemptFrom_eq, Prog.run_ask, hrun]
  exact congrArg Ending.stored hslug

theorem KeptIn.ending_refused (hd : storable d) (htaken : entryOf d ∈ (table t).rows.map entry) :
    ending slug ((attemptFrom base scope order 0 attempt d).run h (t, n)).1 =
      .insertFailed (Candidate.slug d) attempt .slugTaken := by
  obtain ⟨e, t', hrun, hkind, -⟩ := hk.refuses t n hd htaken
  rw [attemptFrom_eq, Prog.run_ask, hrun]
  exact congrArg (Ending.insertFailed (Candidate.slug d) attempt) hkind

/-- An attempt that is refused goes on by the latest variant, and has left the rows as they are. -/
theorem KeptIn.ending_taken (hd₀ : storable d₀) (hd : storable d)
    (htaken : entryOf d ∈ (table t).rows.map entry) (order : VariantOrder) (retries : Nat)
    (attempt : UInt32) :
    let base := Candidate.slug d₀
    let scope := Candidate.scope d₀
    let latest := latestVariant? base order ((table t).stamped entry stamp scope)
    ∃ t' n', (table t).SameRows (table t') ∧
      ending slug ((attemptFrom base scope order (retries + 1) attempt d).run h (t, n)).1 =
        ending slug ((afterLookup base scope order retries attempt d (.ok latest)).run h
          (t', n')).1 := by
  intro base scope latest
  obtain ⟨e, t', hrun, hkind, hrows⟩ := hk.refuses t n hd htaken
  refine ⟨t', n + 1 + 1, hrows, ?_⟩
  rw [attemptFrom_eq, Prog.run_ask, hrun]
  simp only [afterInsert, if_pos (Error.isSlugTaken_iff.mpr hkind)]
  rw [Prog.run_ask, hk.latest t' (n + 1) order hd₀, Table.stamped_congr hrows]

/-! ## All attempts -/

/-- **Attempts under a variant that is taken** are all refused, until none is left or they cannot be
counted. -/
theorem KeptIn.ending_stuck (hd₀ : storable d₀) {next : NumberedSlug}
    (hnext : nextVariant (Candidate.slug d₀) (latestVariant? (Candidate.slug d₀) order
      ((table t).stamped entry stamp (Candidate.scope d₀))) = .ok next)
    (htaken : (⟨next.slug, Candidate.scope d₀⟩ : Entry) ∈ (table t).rows.map entry)
    (hd : storable d) (hentry : entryOf d = ⟨next.slug, Candidate.scope d₀⟩) (retries : Nat)
    (attempt : UInt32) (n : Nat) :
    let x := ending slug
      ((attemptFrom (Candidate.slug d₀) (Candidate.scope d₀) order retries attempt d).run h
        (t, n)).1
    (∃ last : UInt32, last.toNat = attempt.toNat + retries ∧
      x = .insertFailed next.slug last .slugTaken) ∨
      UInt32.size ≤ attempt.toNat + retries ∧ x = .uncounted (Candidate.slug d₀) := by
  have hslug : Candidate.slug d = next.slug := congrArg Entry.slug hentry
  have hvariant : next.slug = Slug.variant (Candidate.slug d₀) next.number :=
    (nextVariant_ok hnext).2.1
  -- on the retries that are left: the rows stay the same, so the next attempt is under the same
  -- slug again
  induction retries generalizing t d attempt n with
  | zero =>
    rw [hk.ending_refused hd (hentry ▸ htaken), hslug]
    exact .inl ⟨attempt, rfl, rfl⟩
  | succ retries ih =>
    obtain ⟨t', n', hrows, hx⟩ :=
      hk.ending_taken (n := n) hd₀ hd (hentry ▸ htaken) order retries attempt
    simp only [hx, afterLookup, Except.bind, hnext]
    have hlt := attempt.toNat_lt
    by_cases hsize : attempt.toNat + 1 = UInt32.size
    · rw [if_pos hsize]
      exact .inr ⟨by omega, rfl⟩
    · rw [if_neg hsize]
      have hsucc : (attempt + 1).toNat = attempt.toNat + 1 :=
        toNat_succ_attempt (Nat.lt_of_le_of_ne (Nat.succ_le_of_lt hlt) hsize)
      have hscope : Candidate.scope d = Candidate.scope d₀ := congrArg Entry.scope hentry
      have hagain : entryOf (Candidate.withSlug d next.slug) = ⟨next.slug, Candidate.scope d₀⟩ := by
        rw [hk.entry_withSlug, hscope]
      have hstorable : storable (Candidate.withSlug d next.slug) :=
        hvariant ▸ hk.withSlug next.number hd hd₀
      have hnext' : nextVariant (Candidate.slug d₀) (latestVariant? (Candidate.slug d₀) order
          ((table t').stamped entry stamp (Candidate.scope d₀))) = .ok next := by
        rwa [Table.stamped_congr hrows]
      have hend := ih hnext' (hrows.rows ▸ htaken) hstorable hagain (attempt + 1) n'
        (congrArg Entry.slug hagain)
      rw [hsucc, Nat.add_assoc, Nat.add_comm 1 retries] at hend
      exact hend

theorem KeptIn.settles_next (hd : storable d) {policy : RetryPolicy} (hretries :
    policy.retries.toNat = retries + 1)
    (hbase : entryOf d ∈ (table t).rows.map entry) {next : NumberedSlug}
    (hnext : nextVariant (Candidate.slug d)
      (latestVariant? (Candidate.slug d) policy.order
        ((table t).stamped entry stamp (Candidate.scope d))) = .ok next) :
    Settles policy (Candidate.slug d) (fun slug =>
      (⟨slug, Candidate.scope d⟩ : Entry) ∈ (table t).rows.map entry)
      (latestVariant? (Candidate.slug d) policy.order
        ((table t).stamped entry stamp (Candidate.scope d)))
      (ending slug ((attemptFrom (Candidate.slug d) (Candidate.scope d) policy.order retries 2
        (Candidate.withSlug d next.slug)).run h (t, n)).1) := by
  have hpos : 0 < policy.retries.toNat := hretries ▸ Nat.succ_pos retries
  have hentry := hk.entry_withSlug d next.slug
  have hstorable : storable (Candidate.withSlug d next.slug) :=
    (nextVariant_ok hnext).2.1 ▸ hk.withSlug next.number hd hd
  by_cases htaken : (⟨next.slug, Candidate.scope d⟩ : Entry) ∈ (table t).rows.map entry
  · have htwo : (2 : UInt32).toNat = 2 := rfl
    rcases hk.ending_stuck hd hnext htaken hstorable hentry retries 2 n with
      ⟨last, hlast, hx⟩ | ⟨hlast, hx⟩
    · rw [hx]
      exact .stuck hbase hpos hnext htaken (by omega)
    · have hlt := policy.retries.toNat_lt
      have hsize : policy.retries.toNat + 1 = UInt32.size := by
        simp only [UInt32.size] at hlast ⊢
        omega
      rw [hx]
      exact .uncounted hbase hnext htaken hsize
  · have hslug : Candidate.slug (Candidate.withSlug d next.slug) = next.slug :=
      congrArg Entry.slug hentry
    rw [hk.ending_free hstorable (hentry ▸ htaken), hslug]
    exact .replaced hbase hpos hnext htaken

/-- **A creation that has the tables for itself** ends as the rows say. -/
theorem KeptIn.settles (hd : storable d) (policy : RetryPolicy) (t : Tables) (n : Nat) :
    Settles policy (Candidate.slug d) (fun slug =>
      (⟨slug, Candidate.scope d⟩ : Entry) ∈ (table t).rows.map entry)
      (latestVariant? (Candidate.slug d) policy.order
        ((table t).stamped entry stamp (Candidate.scope d)))
      (ending slug ((create policy d).run h (t, n)).1) := by
  unfold create
  by_cases hbase : entryOf d ∈ (table t).rows.map entry
  · cases hretries : policy.retries.toNat with
    | zero =>
      rw [hk.ending_refused hd hbase]
      exact .refused hbase hretries
    | succ retries =>
      obtain ⟨t', n', hrows, hx⟩ := hk.ending_taken (n := n) hd hd hbase policy.order retries 1
      simp only [hx, afterLookup, Except.bind]
      -- nothing has been stored so far, so the rows may be those of `t'`
      rw [← hrows.rows] at hbase ⊢
      rw [← Table.stamped_congr hrows]
      cases hnext : nextVariant (Candidate.slug d)
          (latestVariant? (Candidate.slug d) policy.order
            ((table t').stamped entry stamp (Candidate.scope d))) with
      | error cause => exact .unresolved hbase (hretries ▸ Nat.succ_pos retries) hnext
      | ok next =>
        have hsize : ¬(1 : UInt32).toNat + 1 = UInt32.size := by decide
        simp only [if_neg hsize]
        exact hk.settles_next hd hretries hbase hnext
  · rw [hk.ending_free hd hbase]
    exact .free hbase

end Attempts

end Storyline
