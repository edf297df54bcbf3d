import Mathlib.Data.List.Nodup
import Mathlib.Data.List.Sort
import Mathlib.Data.String.Basic
import Storyline.Store.Row
import Storyline.Store.Tables

/-!
# Sorted rows

* `sortBy_perm`, `pairwise_sortBy`: a sorted list has the same elements, each before those that it
  precedes;
* `sortBy_eq`, `sortBy_eq_of_perm`: where no two elements precede each other, there is one such
  list;
* `precedes_of_head?`: the first element precedes all;
* `Stamp.precedes_total`, `Stamp.precedes_trans`, `Stamp.precedes_antisymm`; `pairwise_newestFirst`,
  `newestFirst_congr`.
-/

namespace Storyline

section Sorting

variable {α : Type} {precedes : α → α → Bool}

theorem insertBy_perm (precedes : α → α → Bool) (a : α) (l : List α) :
    (insertBy precedes a l).Perm (a :: l) := by
  induction l with
  | nil => rfl
  | cons b l ih =>
    simp only [insertBy]
    split
    · rfl
    · exact (ih.cons b).trans (List.Perm.swap a b l)

theorem sortBy_perm (precedes : α → α → Bool) (l : List α) : (sortBy precedes l).Perm l := by
  induction l with
  | nil => rfl
  | cons a l ih => exact (insertBy_perm precedes a _).trans (ih.cons a)

theorem mem_insertBy {a b : α} {l : List α} : b ∈ insertBy precedes a l ↔ b = a ∨ b ∈ l := by
  rw [(insertBy_perm precedes a l).mem_iff, List.mem_cons]

theorem mem_sortBy {a : α} {l : List α} : a ∈ sortBy precedes l ↔ a ∈ l :=
  (sortBy_perm precedes l).mem_iff

theorem pairwise_insertBy (htotal : ∀ a b, precedes a b = true ∨ precedes b a = true)
    (htrans : ∀ a b c, precedes a b = true → precedes b c = true → precedes a c = true) (a : α)
    {l : List α} (hl : l.Pairwise fun a b => precedes a b = true) :
    (insertBy precedes a l).Pairwise fun a b => precedes a b = true := by
  induction l with
  | nil => exact List.pairwise_singleton _ _
  | cons b l ih =>
    obtain ⟨hb, hl⟩ := List.pairwise_cons.mp hl
    simp only [insertBy]
    split
    · next hab =>
      refine List.pairwise_cons.mpr ⟨fun c hc => ?_, List.pairwise_cons.mpr ⟨hb, hl⟩⟩
      rcases List.mem_cons.mp hc with rfl | hc
      · exact hab
      · exact htrans a b c hab (hb c hc)
    · next hab =>
      refine List.pairwise_cons.mpr ⟨fun c hc => ?_, ih hl⟩
      rcases mem_insertBy.mp hc with rfl | hc
      · exact (htotal c b).resolve_left hab
      · exact hb c hc

theorem pairwise_sortBy (htotal : ∀ a b, precedes a b = true ∨ precedes b a = true)
    (htrans : ∀ a b c, precedes a b = true → precedes b c = true → precedes a c = true)
    (l : List α) :
    (sortBy precedes l).Pairwise fun a b => precedes a b = true := by
  induction l with
  | nil => exact List.Pairwise.nil
  | cons a l ih => exact pairwise_insertBy htotal htrans a ih

theorem precedes_of_head? (htotal : ∀ a b, precedes a b = true ∨ precedes b a = true)
    (htrans : ∀ a b c, precedes a b = true → precedes b c = true → precedes a c = true) {l : List α}
    {a : α} (h : (sortBy precedes l).head? = some a) : a ∈ l ∧ ∀ b ∈ l, precedes a b = true := by
  obtain ⟨rest, hrest⟩ := List.head?_eq_some_iff.mp h
  have hsorted := pairwise_sortBy htotal htrans l
  rw [hrest] at hsorted
  refine ⟨mem_sortBy.mp (hrest ▸ List.mem_cons_self), fun b hb => ?_⟩
  rw [← (sortBy_perm precedes l).mem_iff, hrest] at hb
  rcases List.mem_cons.mp hb with rfl | hb
  · exact (htotal b b).elim id id
  · exact List.rel_of_pairwise_cons hsorted hb

theorem sortBy_eq (htotal : ∀ a b, precedes a b = true ∨ precedes b a = true)
    (htrans : ∀ a b c, precedes a b = true → precedes b c = true → precedes a c = true)
    {l l' : List α} (hanti : ∀ a ∈ l, ∀ b ∈ l, precedes a b = true → precedes b a = true → a = b)
    (hperm : l.Perm l') (hl' : l'.Pairwise fun a b => precedes a b = true) :
    sortBy precedes l = l' := by
  refine List.Perm.eq_of_pairwise (fun a b ha hb =>
    hanti a (mem_sortBy.mp ha) b (hperm.mem_iff.mpr hb))
    (pairwise_sortBy htotal htrans l) hl' ((sortBy_perm precedes l).trans hperm)

theorem sortBy_eq_of_perm (htotal : ∀ a b, precedes a b = true ∨ precedes b a = true)
    (htrans : ∀ a b c, precedes a b = true → precedes b c = true → precedes a c = true)
    {l l' : List α} (hanti : ∀ a ∈ l, ∀ b ∈ l, precedes a b = true → precedes b a = true → a = b)
    (hperm : l.Perm l') :
    sortBy precedes l = sortBy precedes l' :=
  sortBy_eq htotal htrans hanti (hperm.trans (sortBy_perm precedes l').symm)
    (pairwise_sortBy htotal htrans l')

end Sorting

/-! ## Stamps -/

namespace Stamp

theorem precedes_iff {a b : Stamp} : a.precedes b = true ↔
    b.createdAt < a.createdAt ∨ a.createdAt = b.createdAt ∧ b.id ≤ a.id := by
  simp [precedes]

theorem precedes_total (a b : Stamp) : a.precedes b = true ∨ b.precedes a = true := by
  simp only [precedes_iff, Timestamp]
  omega

theorem precedes_trans (a b c : Stamp) (hab : a.precedes b = true) (hbc : b.precedes c = true) :
    a.precedes c = true := by
  simp only [precedes_iff, Timestamp] at *
  omega

theorem precedes_antisymm {a b : Stamp} (hab : a.precedes b = true) (hba : b.precedes a = true) :
    a.id = b.id := by
  simp only [precedes_iff, Timestamp] at *
  omega

end Stamp

/-- **Rows under different numbers are listed** from the latest time on, and within one time from
the largest number on. -/
theorem pairwise_newestFirst {ρ : Type} (stamp : ρ → Stamp) {rows : List ρ}
    (hids : (rows.map fun row => (stamp row).id).Nodup) :
    (newestFirst stamp rows).Pairwise fun a b =>
      (stamp b).createdAt < (stamp a).createdAt ∨
        (stamp a).createdAt = (stamp b).createdAt ∧ (stamp b).id < (stamp a).id := by
  have hperm : (newestFirst stamp rows).Perm rows := sortBy_perm _ rows
  have hsorted : (newestFirst stamp rows).Pairwise fun a b => (stamp a).precedes (stamp b) = true :=
    pairwise_sortBy (fun a b => (stamp a).precedes_total (stamp b))
      (fun a b c => (stamp a).precedes_trans (stamp b) (stamp c)) rows
  have hne : (newestFirst stamp rows).Pairwise fun a b => (stamp a).id ≠ (stamp b).id :=
    List.pairwise_map.mp ((hperm.map _).nodup_iff.mpr hids)
  refine (hsorted.and hne).imp fun {a b} ⟨hab, hid⟩ => ?_
  exact (Stamp.precedes_iff.mp hab).imp_right fun ⟨htime, hle⟩ =>
    ⟨htime, lt_of_le_of_ne hle hid.symm⟩

/-- **The listing of rows** under different numbers depends on which they are, not on how they are
kept. -/
theorem newestFirst_congr {ρ : Type} {stamp : ρ → Stamp} {l l' : List ρ}
    (hl : (l.map fun row => (stamp row).id).Nodup) (hl' : (l'.map fun row => (stamp row).id).Nodup)
    (h : ∀ row, row ∈ l ↔ row ∈ l') : newestFirst stamp l = newestFirst stamp l' := by
  refine sortBy_eq_of_perm (fun a b => (stamp a).precedes_total (stamp b))
    (fun a b c => (stamp a).precedes_trans (stamp b) (stamp c)) (fun a ha b hb hab hba => ?_)
    ((List.perm_ext_iff_of_nodup hl.of_map hl'.of_map).mpr h)
  exact List.inj_on_of_nodup_map hl ha hb (Stamp.precedes_antisymm hab hba)

/-! ## Current plans

A plan is read in three ways: as the newest iteration of its slug, as the list of all its
iterations, and as one of the newest iterations of all slugs. They are sorted by different keys, and
agree.

* `StoryPlan.precedes_iff`: plans by slug, and then by their stamps;
* `filter_sortBy_slug`: in the order by slug, the iterations of one slug stand as in their own
  listing;
* `firstOfEachSlug`: what it keeps of a list that is sorted by slug, with `filter_firstOfEachSlug`
  for one slug and `pairwise_firstOfEachSlug` for all;
* **`Tables.planReadings_agree`**: the three readings of one table.
-/

/-! ### Plans by slug -/

namespace StoryPlan

theorem precedes_iff {a b : StoryPlan} :
    a.precedes b = true ↔ a.slug < b.slug ∨ a.slug = b.slug ∧ a.stamp.precedes b.stamp = true := by
  simp [precedes]

theorem precedes_total (a b : StoryPlan) : a.precedes b = true ∨ b.precedes a = true := by
  simp only [precedes_iff]
  rcases lt_trichotomy a.slug b.slug with hlt | heq | hgt
  · exact .inl (.inl hlt)
  · exact (a.stamp.precedes_total b.stamp).imp (fun h => .inr ⟨heq, h⟩) fun h => .inr ⟨heq.symm, h⟩
  · exact .inr (.inl hgt)

theorem precedes_trans (a b c : StoryPlan) (hab : a.precedes b = true) (hbc : b.precedes c = true) :
    a.precedes c = true := by
  simp only [precedes_iff] at *
  rcases hab with hab | ⟨hab, hstamp⟩
  · rcases hbc with hbc | ⟨hbc, -⟩
    · exact .inl (hab.trans hbc)
    · exact .inl (hbc ▸ hab)
  · rcases hbc with hbc | ⟨hbc, hstamp'⟩
    · exact .inl (hab ▸ hbc)
    · exact .inr ⟨hab.trans hbc, Stamp.precedes_trans _ _ _ hstamp hstamp'⟩

theorem slug_le_of_precedes {a b : StoryPlan} (h : a.precedes b = true) : a.slug ≤ b.slug := by
  rcases precedes_iff.mp h with hlt | ⟨heq, -⟩
  · exact hlt.le
  · exact heq.le

end StoryPlan

section Sorting

variable {plans : List StoryPlan} {slug : String}

theorem pairwise_sortBy_slug (plans : List StoryPlan) :
    (sortBy StoryPlan.precedes plans).Pairwise fun a b => a.slug ≤ b.slug :=
  (pairwise_sortBy StoryPlan.precedes_total StoryPlan.precedes_trans plans).imp
    StoryPlan.slug_le_of_precedes

/-- **The iterations of one slug** stand in the order by slug as they are listed by themselves. -/
theorem filter_sortBy_slug (hids : (plans.map (·.id)).Nodup) (slug : String) :
    (sortBy StoryPlan.precedes plans).filter (·.slug = slug) = iterationsOf plans slug := by
  refine (sortBy_eq (fun a b => a.stamp.precedes_total b.stamp)
    (fun a b c => a.stamp.precedes_trans b.stamp c.stamp) (fun a ha b hb hab hba => ?_)
    ((sortBy_perm StoryPlan.precedes plans).symm.filter _) ?_).symm
  · exact List.inj_on_of_nodup_map hids (List.mem_of_mem_filter ha) (List.mem_of_mem_filter hb)
      (Stamp.precedes_antisymm hab hba)
  · -- behind the slug, which is the same here, plans are sorted by their stamps
    have hsorted := pairwise_sortBy StoryPlan.precedes_total StoryPlan.precedes_trans plans
    refine (hsorted.filter _).imp_of_mem fun {a b} ha hb hab => ?_
    have hslug : a.slug = b.slug := by
      have ha := List.of_mem_filter ha
      have hb := List.of_mem_filter hb
      rw [of_decide_eq_true ha, of_decide_eq_true hb]
    exact ((StoryPlan.precedes_iff.mp hab).resolve_left fun hlt => hlt.ne hslug).2

end Sorting

/-! ### The first of each slug -/

section First

variable {previous : Option String} {l : List StoryPlan}

theorem firstOfEachSlug_sublist (previous : Option String) (l : List StoryPlan) :
    (firstOfEachSlug previous l).Sublist l := by
  induction l generalizing previous with
  | nil => exact .slnil
  | cons p ps ih =>
    rw [firstOfEachSlug]
    split
    · exact (ih previous).cons p
    · exact (ih (some p.slug)).cons_cons p

/-- **One plan is kept for each slug**, the first of those that have it. -/
theorem filter_firstOfEachSlug (previous : Option String) (slug : String)
    (hl : l.Pairwise fun a b => a.slug ≤ b.slug)
    (hprevious : ∀ s, previous = some s → ∀ p ∈ l, s ≤ p.slug) :
    (firstOfEachSlug previous l).filter (·.slug = slug) =
      if previous = some slug then [] else (l.filter (·.slug = slug)).head?.toList := by
  induction l generalizing previous with
  | nil => simp [firstOfEachSlug]
  | cons p ps ih =>
    obtain ⟨hp, hps⟩ := List.pairwise_cons.mp hl
    rw [firstOfEachSlug]
    by_cases hsame : previous = some p.slug
    · have hprevious' : ∀ s, previous = some s → ∀ q ∈ ps, s ≤ q.slug :=
        fun s hs q hq => hprevious s hs q (List.mem_cons_of_mem p hq)
      rw [if_pos hsame, ih previous hps hprevious']
      by_cases hslug : p.slug = slug
      · rw [hsame, hslug, if_pos rfl, if_pos rfl]
      · rw [List.filter_cons_of_neg (by simpa using hslug)]
    · have hfirst : ∀ s, some p.slug = some s → ∀ q ∈ ps, s ≤ q.slug :=
        fun s hs q hq => Option.some.inj hs ▸ hp q hq
      rw [if_neg hsame]
      by_cases hslug : p.slug = slug
      · rw [List.filter_cons_of_pos (by simpa using hslug),
          List.filter_cons_of_pos (by simpa using hslug), ih (some p.slug) hps hfirst,
          if_pos (congrArg some hslug), if_neg (hslug ▸ hsame)]
        rfl
      · rw [List.filter_cons_of_neg (by simpa using hslug),
          List.filter_cons_of_neg (by simpa using hslug), ih (some p.slug) hps hfirst,
          if_neg fun h => hslug (Option.some.inj h)]
        split
        · next hpast =>
          -- the slug has been passed: all that follow come after `p`, which comes after it
          have hlt : slug < p.slug :=
            lt_of_le_of_ne (hprevious slug hpast p List.mem_cons_self) (Ne.symm hslug)
          have hnil : ps.filter (·.slug = slug) = [] := by
            refine List.filter_eq_nil_iff.mpr fun q hq => ?_
            rw [decide_eq_true_eq]
            exact (hlt.trans_le (hp q hq)).ne'
          rw [hnil]
          rfl
        · rfl

theorem slug_lt_of_mem_firstOfEachSlug (hl : l.Pairwise fun a b => a.slug ≤ b.slug) {s : String}
    (hs : ∀ p ∈ l, s ≤ p.slug) {p : StoryPlan} (hp : p ∈ firstOfEachSlug (some s) l) :
    s < p.slug := by
  have hne : p.slug ≠ s := by
    rintro rfl
    have hnil := filter_firstOfEachSlug (some p.slug) p.slug hl fun s h => Option.some.inj h ▸ hs
    rw [if_pos rfl, List.filter_eq_nil_iff] at hnil
    exact hnil p hp (by simp)
  exact lt_of_le_of_ne (hs p ((firstOfEachSlug_sublist _ l).subset hp)) hne.symm

theorem pairwise_firstOfEachSlug (hl : l.Pairwise fun a b => a.slug ≤ b.slug) :
    (firstOfEachSlug previous l).Pairwise fun a b => a.slug < b.slug := by
  induction l generalizing previous with
  | nil => exact .nil
  | cons p ps ih =>
    obtain ⟨hp, hps⟩ := List.pairwise_cons.mp hl
    rw [firstOfEachSlug]
    split
    · exact ih hps
    · exact List.pairwise_cons.mpr ⟨fun q hq => slug_lt_of_mem_firstOfEachSlug hps hp hq, ih hps⟩

end First

/-! ### The three readings -/

namespace Tables

variable {t : Tables} {slug : String} {row : StoryPlan}

theorem mem_planIterations :
    row ∈ t.planIterations slug ↔ row ∈ t.plans.rows ∧ row.slug = slug := by
  rw [planIterations, iterationsOf, newestFirst, mem_sortBy, List.mem_filter, decide_eq_true_iff]

theorem currentPlan?_eq_some (h : t.currentPlan? slug = some row) :
    row ∈ t.plans.rows ∧ row.slug = slug :=
  mem_planIterations.mp (List.mem_of_head? h)

theorem exists_currentPlan? (h : ∃ plan ∈ t.plans.rows, plan.slug = slug) :
    ∃ plan, t.currentPlan? slug = some plan := by
  obtain ⟨plan, hplan⟩ := h
  have hmem : plan ∈ t.planIterations slug := mem_planIterations.mpr hplan
  exact Option.isSome_iff_exists.mp (List.isSome_head?.mpr (List.ne_nil_of_mem hmem))

section Current

variable (hids : (t.plans.rows.map (·.id)).Nodup)
include hids

/-- **Among the current plans of all slugs**, that of one slug is its newest iteration. -/
theorem filter_currentPlans (slug : String) :
    t.currentPlans.filter (·.slug = slug) = (t.currentPlan? slug).toList := by
  have hfirst := filter_firstOfEachSlug none slug (pairwise_sortBy_slug t.plans.rows) nofun
  rwa [if_neg nofun, filter_sortBy_slug hids] at hfirst

theorem mem_currentPlans : row ∈ t.currentPlans ↔ t.currentPlan? row.slug = some row := by
  have hmem : row ∈ t.currentPlans.filter (·.slug = row.slug) ↔ row ∈ t.currentPlans := by
    rw [List.mem_filter, decide_eq_true_eq, and_iff_left rfl]
  rw [← hmem, filter_currentPlans hids, Option.mem_toList]

theorem mem_slugs_currentPlans :
    slug ∈ t.currentPlans.map (·.slug) ↔ slug ∈ t.plans.rows.map (·.slug) := by
  simp only [List.mem_map, mem_currentPlans hids]
  constructor
  · rintro ⟨plan, hplan, rfl⟩
    exact ⟨plan, (currentPlan?_eq_some hplan).1, rfl⟩
  · intro hslug
    obtain ⟨plan, hplan⟩ := exists_currentPlan? hslug
    obtain rfl := (currentPlan?_eq_some hplan).2
    exact ⟨plan, hplan, rfl⟩

end Current

/-- **The readings of plans agree**, in whichever order and with whichever times the rows were
stored. The iterations of a slug are its rows, from the latest time on and within one time from the
largest number on. There is a current plan if there is an iteration; it is the first of them, and
the one row of its slug among the current plans of all slugs. Of these there is one for each slug
that occurs, and the slugs ascend by code points. -/
theorem planReadings_agree (t : Tables) (hids : (t.plans.rows.map (·.id)).Nodup) :
    (∀ slug, (t.planIterations slug).Perm (t.plans.rows.filter (·.slug = slug)) ∧
      ((t.planIterations slug).Pairwise fun a b =>
        b.createdAt < a.createdAt ∨ a.createdAt = b.createdAt ∧ b.id < a.id) ∧
      ((t.currentPlan? slug).isSome ↔ t.planIterations slug ≠ []) ∧
      ∀ plan, t.currentPlan? slug = some plan →
        (t.planIterations slug).head? = some plan ∧
          t.currentPlans.filter (·.slug = slug) = [plan]) ∧
    (t.currentPlans.map (·.slug)).Pairwise (· < ·) ∧
    ∀ slug, slug ∈ t.currentPlans.map (·.slug) ↔ slug ∈ t.plans.rows.map (·.slug) := by
  refine ⟨fun slug => ⟨sortBy_perm _ _, ?_, List.isSome_head?, fun plan hplan => ⟨hplan, ?_⟩⟩, ?_,
    fun slug => mem_slugs_currentPlans hids⟩
  · have hrows : ((t.plans.rows.filter (·.slug = slug)).map (·.id)).Nodup :=
      hids.sublist (List.filter_sublist.map _)
    exact pairwise_newestFirst StoryPlan.stamp hrows
  · rw [filter_currentPlans hids, hplan, Option.toList_some]
  · exact List.pairwise_map.mpr (pairwise_firstOfEachSlug (pairwise_sortBy_slug t.plans.rows))

/-- The third row of `a` is from the same time as the second and was stored before it; the first row
of `a` is the latest by its number, but not by its time. -/
theorem planReadings_agree_interleaved :
    let row (id : Int) (slug : String) (createdAt : Timestamp) : StoryPlan :=
      ⟨id, slug, "", none, [], createdAt⟩
    let t : Tables :=
      { plans := ⟨[row 9 "a" 5, row 2 "b" 3, row 4 "a" 7, row 1 "ab" 8, row 3 "a" 7], 9⟩ }
    (t.plans.rows.map (·.id)).Nodup ∧ t.planIterations "a" = [row 4 "a" 7, row 3 "a" 7,
      row 9 "a" 5] ∧
      t.currentPlan? "a" = some (row 4 "a" 7) ∧ t.currentPlans.filter (·.slug = "a") =
        [row 4 "a" 7] ∧
      t.currentPlans.map (·.slug) = ["a", "ab", "b"] := by
  intro row t
  have hids : (t.plans.rows.map (·.id)).Nodup := by decide
  have hplan : t.currentPlan? "a" = some (row 4 "a" 7) := by decide +kernel
  exact ⟨hids, by decide +kernel, hplan, (((planReadings_agree t hids).1 "a").2.2.2 _ hplan).2,
    by decide +kernel⟩

end Tables

end Storyline
