import Mathlib.Data.List.MinMax
import Mathlib.Data.List.Nodup
import Mathlib.Order.Nat
import Storyline.Proofs.Attempts
import Storyline.Registry

/-!
# Ladders of slugs

Creations that ask for one slug in one scope are given the slug itself and then its variants in
turn. A scope whose slugs are a ladder proposes the next rung in either order.

* `Slug.rung`, `Slug.ladder`;
* `Registry.slugsOf`: the slugs of a scope, oldest first;
* `Registry.next_rung`: the variant after the latest one of a ladder.
-/

namespace Storyline

namespace Slug

/-- The base for `0`, its variant with number `n` otherwise. -/
def rung (base : String) : Nat → String
  | 0 => base
  | n + 1 => dashed base (Numeral.write (n + 1))

/-- The first `n` rungs. -/
def ladder (base : String) (n : Nat) : List String := (List.range n).map (rung base)

theorem rung_of_pos (base : String) {n : Nat} (hn : 0 < n) :
    rung base n = dashed base (Numeral.write n) := by
  obtain ⟨n, rfl⟩ := Nat.exists_eq_add_one_of_ne_zero (Nat.pos_iff_ne_zero.mp hn)
  rfl

theorem rung_injective (base : String) : Function.Injective (rung base) := by
  intro m n h
  rcases Nat.eq_zero_or_pos m with rfl | hm <;> rcases Nat.eq_zero_or_pos n with rfl | hn
  · rfl
  · rw [rung_of_pos base hn] at h
    exact absurd h.symm (dashed_ne base _)
  · rw [rung_of_pos base hm] at h
    exact absurd h (dashed_ne base _)
  · rw [rung_of_pos base hm, rung_of_pos base hn] at h
    have := congrArg suffixValue (dashed_injective base h)
    rwa [suffixValue_write, suffixValue_write] at this

theorem ladder_succ (base : String) (n : Nat) :
    ladder base (n + 1) = ladder base n ++ [rung base n] := by
  rw [ladder, List.range_succ, List.map_append, ladder, List.map_singleton]

theorem mem_ladder {base slug : String} {n : Nat} :
    slug ∈ ladder base n ↔ ∃ k < n, rung base k = slug := by
  simp only [ladder, List.mem_map, List.mem_range]

theorem rung_mem_ladder {base : String} {k n : Nat} : rung base k ∈ ladder base n ↔ k < n := by
  rw [mem_ladder]
  constructor
  · rintro ⟨j, hj, h⟩
    rwa [← rung_injective base h]
  · exact fun h => ⟨k, h, rfl⟩

theorem nodup_ladder (base : String) (n : Nat) : (ladder base n).Nodup :=
  List.nodup_range.map (rung_injective base)

end Slug

namespace Registry

open Slug

/-- The slugs of a scope, oldest first. -/
def slugsOf (rows : List Entry) (scope : Scope) : List String :=
  (rows.filter (·.scope = scope)).map (·.slug)

theorem mem_slugsOf {rows : List Entry} {e : Entry} : e.slug ∈ slugsOf rows e.scope ↔ e ∈ rows := by
  simp only [slugsOf, List.mem_map, List.mem_filter, decide_eq_true_eq]
  constructor
  · rintro ⟨⟨slug, scope⟩, ⟨hm, hs⟩, he⟩
    obtain ⟨slug', scope'⟩ := e
    cases hs
    cases he
    exact hm
  · exact fun h => ⟨e, ⟨h, rfl⟩, rfl⟩

theorem slugsOf_append_self (rows : List Entry) (e : Entry) :
    slugsOf (rows ++ [e]) e.scope = slugsOf rows e.scope ++ [e.slug] := by
  simp [slugsOf]

theorem slugsOf_append_of_ne {e : Entry} {scope : Scope} (h : e.scope ≠ scope) (rows : List Entry) :
    slugsOf (rows ++ [e]) scope = slugsOf rows scope := by
  simp [slugsOf, h]

theorem variants_eq (rows : List Entry) (base : String) (scope : Scope) : variants rows base scope =
    (slugsOf rows scope).filterMap fun slug => (suffix? base slug).map fun ds => (slug, ds) := by
  rw [variants, slugsOf, List.filterMap_map]
  rfl

/-! ## The element with the largest value -/

theorem firstMax_eq_none {α : Type} {f : α → Nat} {l : List α} : firstMax f l = none ↔ l = [] := by
  cases l with
  | nil => simp [firstMax]
  | cons x xs =>
    simp only [firstMax, reduceCtorEq, iff_false]
    split
    · simp
    · split <;> simp

theorem firstMax_eq_some {α : Type} {f : α → Nat} {l : List α} {y : α} (h : firstMax f l = some y) :
    y ∈ l ∧ ∀ x ∈ l, f x ≤ f y := by
  induction l generalizing y with
  | nil => simp [firstMax] at h
  | cons x xs ih =>
    simp only [firstMax] at h
    split at h
    · next hn =>
      rw [firstMax_eq_none.mp hn]
      cases Option.some.inj h
      simp
    · next z hz =>
      obtain ⟨hm, hle⟩ := ih hz
      split at h
      · next hzx =>
        cases Option.some.inj h
        refine ⟨List.mem_cons_self, fun w hw => ?_⟩
        rcases List.mem_cons.mp hw with rfl | hw
        · exact Nat.le_refl _
        · exact Nat.le_trans (hle w hw) hzx
      · next hzx =>
        cases Option.some.inj h
        refine ⟨List.mem_cons_of_mem _ hm, fun w hw => ?_⟩
        rcases List.mem_cons.mp hw with rfl | hw
        · omega
        · exact hle w hw

/-! ## The variant after a ladder -/

section Next

variable {rows : List Entry} {base : String} {scope : Scope} {n : Nat}

theorem variants_ladder (h : slugsOf rows scope = ladder base (n + 1)) : variants rows base scope =
    (List.range n).map fun k => (rung base (k + 1), Numeral.write (k + 1)) := by
  rw [variants_eq, h, ladder, List.range_succ_eq_map, List.map_cons, List.filterMap_cons]
  simp only [rung, suffix?_self, Option.map_none, List.map_map, List.filterMap_map]
  rw [← List.filterMap_eq_map]
  congr 1
  funext k
  simp [rung, suffix?_write]

/-- The latest variant of a ladder is its last rung, except that numbers above the cap are taken
for equal. -/
theorem latest?_ladder (h : slugsOf rows scope = ladder base (n + 1)) (order : VariantOrder) :
    (latest? rows base scope order = none ∧ n = 0) ∨
      ∃ k, latest? rows base scope order = some (rung base (k + 1)) ∧ k < n ∧
        min n suffixCap ≤ k + 1 := by
  cases order with
  | newest =>
    rw [latest?, variants_ladder h, List.getLast?_map, List.getLast?_range]
    split
    · next h0 => exact .inl ⟨rfl, h0⟩
    · next h0 => exact .inr ⟨n - 1, rfl, by omega, by omega⟩
  | highest =>
    rw [latest?, variants_ladder h]
    cases hm : firstMax rank ((List.range n).map fun k =>
      (rung base (k + 1), Numeral.write (k + 1))) with
    | none =>
      rw [firstMax_eq_none, List.map_eq_nil_iff, List.range_eq_nil] at hm
      exact .inl ⟨rfl, hm⟩
    | some y =>
      obtain ⟨hy, hle⟩ := firstMax_eq_some hm
      simp only [List.mem_map, List.mem_range] at hy
      obtain ⟨k, hk, rfl⟩ := hy
      refine .inr ⟨k, rfl, hk, ?_⟩
      have := hle (rung base (n - 1 + 1), Numeral.write (n - 1 + 1))
        (List.mem_map.mpr ⟨n - 1, List.mem_range.mpr (by omega), rfl⟩)
      simp only [rank, suffixValue_write] at this
      omega

/-- **The variant after a ladder is its next rung**, in either order, if there is one. -/
theorem next_rung (h : slugsOf rows scope = ladder base (n + 1)) {order : VariantOrder}
    {next : NumberedSlug} (hnext : nextVariant base (latest? rows base scope order) = .ok next) :
    next.slug = rung base (n + 1) := by
  obtain ⟨hnum, hslug, -⟩ := nextVariant_ok hnext
  rw [hslug, variant_eq, rung]
  congr 2
  rcases latest?_ladder h order with ⟨hl, rfl⟩ | ⟨k, hl, hk, hcap⟩
  · rw [hl, nextNumber] at hnum
    rw [← Except.ok.inj hnum]
    rfl
  · rw [hl] at hnum
    obtain ⟨m, hm, hsucc⟩ := nextNumber_some hnum
    rw [rung, number_write] at hm
    split at hm
    · next hle =>
      have hkn : k + 1 = n := by
        simp only [suffixCap] at hcap
        simp only [maxNumber, UInt32.size] at hle
        omega
      have hsize : k + 1 < UInt32.size := by
        simp only [maxNumber] at hle
        omega
      rw [hsucc, ← Except.ok.inj hm, UInt32.toNat_ofNat_of_lt' hsize, hkn]
    · simp at hm

end Next

end Registry

/-! ## Counting on from the largest number

* `Slug.numbers`, `Slug.topNumber`: the numbers of the variants among slugs, and the largest;
* `Slug.rung_top_not_mem`: the variant after the largest number is not among them;
  `Slug.pairwise_numbers_append_rung`: numbers that do not fall;
* `Slug.Reveals`: what a lookup has to answer for the next variant to be that one, with
  `Slug.Reveals.nextVariant`;
* `Registry.reveals_highest`, `Registry.reveals_newest`, `Registry.reveals_latest`: when a registry
  answers so.
-/

namespace Slug

variable {base slug : String} {slugs : List String} {ds : List Char}

/-- The numbers of the variants of `base` among slugs, in the order of the slugs. -/
def numbers (base : String) (slugs : List String) : List Nat :=
  (slugs.filterMap (suffix? base)).map suffixValue

/-- The largest number of a variant of `base` among slugs; 0 if there is no variant. -/
def topNumber (base : String) (slugs : List String) : Nat := (numbers base slugs).foldr max 0

theorem mem_numbers {n : Nat} : n ∈ numbers base slugs ↔
    ∃ slug ∈ slugs, ∃ ds, suffix? base slug = some ds ∧ suffixValue ds = n := by
  simp only [numbers, List.mem_map, List.mem_filterMap]
  constructor
  · rintro ⟨ds, ⟨slug, hslug, hd⟩, rfl⟩
    exact ⟨slug, hslug, ds, hd, rfl⟩
  · rintro ⟨slug, hslug, ds, hd, rfl⟩
    exact ⟨ds, ⟨slug, hslug, hd⟩, rfl⟩

theorem le_topNumber_of_mem {n : Nat} (hn : n ∈ numbers base slugs) : n ≤ topNumber base slugs :=
  List.le_max_of_le hn (Nat.le_refl n)

theorem le_topNumber (hslug : slug ∈ slugs) (hd : suffix? base slug = some ds) :
    suffixValue ds ≤ topNumber base slugs :=
  le_topNumber_of_mem (mem_numbers.mpr ⟨slug, hslug, ds, hd, rfl⟩)

theorem topNumber_le {m : Nat} (h : ∀ n ∈ numbers base slugs, n ≤ m) : topNumber base slugs ≤ m :=
  List.max_le_of_forall_le _ m h

theorem topNumber_mono {slugs' : List String} (h : slugs ⊆ slugs') :
    topNumber base slugs ≤ topNumber base slugs' := by
  refine topNumber_le fun n hn => ?_
  obtain ⟨slug, hslug, hd⟩ := mem_numbers.mp hn
  exact le_topNumber_of_mem (mem_numbers.mpr ⟨slug, h hslug, hd⟩)

/-- **The variant after the largest number is free.** -/
theorem rung_top_not_mem (base : String) (slugs : List String) :
    rung base (topNumber base slugs + 1) ∉ slugs := by
  intro h
  have := le_topNumber h (suffix?_write base (topNumber base slugs + 1))
  rw [suffixValue_write] at this
  omega

theorem numbers_append_rung (base : String) (slugs : List String) (k : Nat) :
    numbers base (slugs ++ [rung base k]) = numbers base slugs ++ if k = 0 then [] else [k] := by
  rw [numbers, List.filterMap_append, List.map_append, ← numbers]
  congr 1
  cases k with
  | zero => simp [rung, suffix?_self]
  | succ k => simp [rung, suffix?_write]

theorem topNumber_append_rung (base : String) (slugs : List String) (k : Nat) :
    topNumber base (slugs ++ [rung base k]) = max (topNumber base slugs) k := by
  have hmem : ∀ n, n ∈ numbers base (slugs ++ [rung base k]) ↔ n ∈ numbers base slugs ∨
      0 < k ∧ n = k := by
    intro n
    rw [numbers_append_rung, List.mem_append]
    split
    · next hk => simp [hk]
    · next hk => simp [Nat.pos_of_ne_zero hk]
  apply Nat.le_antisymm
  · refine topNumber_le fun n hn => ?_
    rcases (hmem n).mp hn with hn | ⟨-, rfl⟩
    · exact le_max_of_le_left (le_topNumber_of_mem hn)
    · exact Nat.le_max_right _ _
  · refine Nat.max_le.mpr ⟨topNumber_le fun n hn =>
      le_topNumber_of_mem ((hmem n).mpr (.inl hn)), ?_⟩
    rcases Nat.eq_zero_or_pos k with rfl | hk
    · exact Nat.zero_le _
    · exact le_topNumber_of_mem ((hmem k).mpr (.inr ⟨hk, rfl⟩))

/-- **Numbers go on not falling** when the base is stored, or a variant whose number is not below
the largest. -/
theorem pairwise_numbers_append_rung {k : Nat} (h : (numbers base slugs).Pairwise (· ≤ ·))
    (hk : k = 0 ∨ topNumber base slugs ≤ k) :
    (numbers base (slugs ++ [rung base k])).Pairwise (· ≤ ·) := by
  rw [numbers_append_rung, List.pairwise_append]
  refine ⟨h, by split <;> simp, fun m hm m' hm' => ?_⟩
  have hle := le_topNumber_of_mem hm
  split at hm'
  · cases hm'
  · rw [List.mem_singleton.mp hm']
    omega

/-! ### Lookups -/

/-- The answer to a lookup where the largest number of a variant of `base` is `top`: no variant, one
with that number, or, if that number cannot be carried, any one with such a number. -/
inductive Reveals (base : String) (top : Nat) : Option String → Prop
  | none (h : top = 0) : Reveals base top none
  | some {slug : String} {ds : List Char} (hd : suffix? base slug = some ds)
      (h : suffixValue ds = top ∨ maxNumber < suffixValue ds ∧ maxNumber < top) :
      Reveals base top (some slug)

theorem number_of_suffix? (hd : suffix? base slug = some ds) : number base slug =
    if suffixValue ds ≤ maxNumber then .ok (UInt32.ofNat (suffixValue ds))
      else .error .tooLarge := by
  obtain ⟨rfl, hne, hdigits⟩ := suffix?_eq_some.mp hd
  exact number_dashed hne hdigits

theorem toNat_ofNat_of_le {n : Nat} (hn : n ≤ maxNumber) : (UInt32.ofNat n).toNat = n :=
  UInt32.toNat_ofNat_of_lt' (Nat.lt_of_le_of_lt hn (by decide))

theorem variant_ofNat {n : Nat} (hpos : 0 < n) (hn : n ≤ maxNumber) :
    variant base (UInt32.ofNat n) = rung base n := by
  rw [variant_eq, toNat_ofNat_of_le hn, rung_of_pos base hpos]

end Slug

open Slug

variable {base : String} {top : Nat} {latest : Option String}

/-- **The number after that of a stored variant**, if it can be carried. -/
theorem nextNumber_variant {slug : String} {ds : List Char} (hd : suffix? base slug = some ds) :
    nextNumber base (some slug) =
      if maxNumber < suffixValue ds then .error (.unreadableSuffix slug .tooLarge)
      else if suffixValue ds = maxNumber then
        .error (.internal s!"slug iteration overflow for '{slug}'")
      else .ok (UInt32.ofNat (suffixValue ds + 1)) := by
  simp only [nextNumber, storedNumber, number_of_suffix? hd]
  by_cases hle : suffixValue ds ≤ maxNumber
  · rw [if_pos hle, if_neg (Nat.not_lt.mpr hle), UInt32.ofNat_add]
    simp only [Except.mapError, toNat_ofNat_of_le hle]
    rfl
  · rw [if_neg hle, if_pos (Nat.lt_of_not_le hle)]
    rfl

theorem Slug.Reveals.nextNumber (h : Reveals base top latest) :
    (maxNumber < top ∧ ∃ slug, nextNumber base latest = .error (.unreadableSuffix slug .tooLarge)) ∨
      (top = maxNumber ∧ ∃ message, nextNumber base latest = .error (.internal message)) ∨
        (top < maxNumber ∧ nextNumber base latest = .ok (UInt32.ofNat (top + 1))) := by
  cases h with
  | none h =>
    subst h
    exact .inr (.inr ⟨by decide, rfl⟩)
  | @some slug ds hd h =>
    rw [nextNumber_variant hd]
    rcases h with rfl | ⟨hds, htop⟩
    · split_ifs with hlt heq
      · exact .inl ⟨hlt, slug, rfl⟩
      · exact .inr (.inl ⟨heq, _, rfl⟩)
      · exact .inr (.inr ⟨by omega, rfl⟩)
    · rw [if_pos hds]
      exact .inl ⟨htop, slug, rfl⟩

/-- What follows on the largest number `top`: the next variant, or the kind of error there is
instead. -/
def Slug.following (base : String) (top : Nat) : Except ErrorKind NumberedSlug :=
  if maxNumber < top then .error .unreadableSuffix
  else if top = maxNumber then .error .internal
  else if Slug.check (rung base (top + 1)) = .ok () then .ok ⟨rung base (top + 1),
    UInt32.ofNat (top + 1)⟩
  else .error .invalid

/-- **The variant after the latest one** depends on the largest number only, up to the words of an
error. -/
theorem Slug.Reveals.nextVariant (h : Reveals base top latest) :
    (nextVariant base latest).mapError Error.kind = following base top := by
  unfold Storyline.nextVariant following
  rcases h.nextNumber with ⟨hlt, slug, hn⟩ | ⟨heq, message, hn⟩ | ⟨hlt, hn⟩
  · rw [hn, if_pos hlt]
    rfl
  · rw [hn, if_neg (by omega), if_pos heq]
    rfl
  · rw [hn, if_neg (by omega), if_neg (by omega)]
    simp only [variant_ofNat (Nat.succ_pos top) (Nat.succ_le_of_lt hlt)]
    cases hc : Slug.check (rung base (top + 1)) with
    | ok u => rfl
    | error fault => rfl

theorem Slug.following_ok {next : NumberedSlug} (h : following base top = .ok next) :
    top + 1 ≤ maxNumber ∧ Slug.check (rung base (top + 1)) = .ok () ∧
      next.slug = rung base (top + 1) := by
  unfold following at h
  split_ifs at h with hlt heq hc
  cases h
  exact ⟨by omega, hc, rfl⟩

theorem Slug.following_error {kind : ErrorKind} (h : following base top = .error kind) :
    ¬(top + 1 ≤ maxNumber ∧ Slug.check (rung base (top + 1)) = .ok ()) ∧
      kind = if maxNumber < top then .unreadableSuffix
        else if top = maxNumber then .internal else .invalid := by
  unfold following at h
  split_ifs at h with hlt heq hc
  · cases h
    exact ⟨by omega, by rw [if_pos hlt]⟩
  · cases h
    exact ⟨by omega, by rw [if_neg hlt, if_pos heq]⟩
  · cases h
    exact ⟨fun h => hc h.2, by rw [if_neg hlt, if_neg heq]⟩

theorem Slug.Reveals.nextVariant_ok (h : Reveals base top latest) {next : NumberedSlug}
    (hn : Storyline.nextVariant base latest = .ok next) :
    top + 1 ≤ maxNumber ∧ Slug.check (rung base (top + 1)) = .ok () ∧
      next.slug = rung base (top + 1) := by
  have hfollowing := h.nextVariant
  rw [hn] at hfollowing
  exact following_ok hfollowing.symm

theorem Slug.Reveals.nextVariant_error (h : Reveals base top latest) {cause : Error}
    (hn : Storyline.nextVariant base latest = .error cause) :
    ¬(top + 1 ≤ maxNumber ∧ Slug.check (rung base (top + 1)) = .ok ()) ∧ cause.kind =
      if maxNumber < top then .unreadableSuffix else if top = maxNumber then .internal
        else .invalid := by
  have hfollowing := h.nextVariant
  rw [hn] at hfollowing
  exact following_error hfollowing.symm

namespace Registry

variable {rows : List Entry} {scope : Scope}

theorem mem_variants {slug : String} {ds : List Char} : (slug, ds) ∈ variants rows base scope ↔
    slug ∈ slugsOf rows scope ∧ suffix? base slug = some ds := by
  simp only [variants_eq, List.mem_filterMap, Option.map_eq_some_iff, Prod.mk.injEq]
  constructor
  · rintro ⟨slug, hslug, ds, hd, rfl, rfl⟩
    exact ⟨hslug, hd⟩
  · rintro ⟨hslug, hd⟩
    exact ⟨slug, hslug, ds, hd, rfl, rfl⟩

theorem suffix?_of_latest? {order : VariantOrder} {slug : String}
    (h : latest? rows base scope order = some slug) :
    slug ∈ slugsOf rows scope ∧ ∃ ds, suffix? base slug = some ds := by
  have hmem : ∃ v ∈ variants rows base scope, v.1 = slug := by
    cases order with
    | newest =>
      obtain ⟨v, hv, rfl⟩ := Option.map_eq_some_iff.mp h
      exact ⟨v, List.mem_of_getLast? hv, rfl⟩
    | highest =>
      obtain ⟨v, hv, rfl⟩ := Option.map_eq_some_iff.mp h
      exact ⟨v, (firstMax_eq_some hv).1, rfl⟩
  obtain ⟨⟨_, ds⟩, hv, rfl⟩ := hmem
  obtain ⟨hslug, hd⟩ := mem_variants.mp hv
  exact ⟨hslug, ds, hd⟩

theorem numbers_slugsOf (rows : List Entry) (base : String) (scope : Scope) :
    numbers base (slugsOf rows scope) = (variants rows base scope).map fun v =>
      suffixValue v.2 := by
  rw [variants_eq, numbers, List.map_filterMap, List.map_filterMap]
  congr 1
  funext slug
  rw [Option.map_map]
  rfl

theorem topNumber_of_variants_nil (h : variants rows base scope = []) :
    topNumber base (slugsOf rows scope) = 0 := by
  rw [topNumber, numbers_slugsOf, h]
  rfl

theorem reveals_highest (rows : List Entry) (base : String) (scope : Scope) :
    Reveals base (topNumber base (slugsOf rows scope)) (latest? rows base scope .highest) := by
  rw [latest?]
  cases hm : firstMax rank (variants rows base scope) with
  | none => exact .none (topNumber_of_variants_nil (firstMax_eq_none.mp hm))
  | some v =>
    obtain ⟨slug, ds⟩ := v
    obtain ⟨hmem, hmax⟩ := firstMax_eq_some hm
    obtain ⟨hslug, hd⟩ := mem_variants.mp hmem
    have hle := le_topNumber hslug hd
    refine .some hd ?_
    by_cases hcap : suffixValue ds < suffixCap
    · refine .inl (Nat.le_antisymm hle (topNumber_le fun n hn => ?_))
      obtain ⟨slug', hslug', ds', hd', rfl⟩ := mem_numbers.mp hn
      have := hmax (slug', ds') (mem_variants.mpr ⟨hslug', hd'⟩)
      simp only [rank] at this
      omega
    · have : maxNumber < suffixCap := by decide
      exact .inr ⟨by omega, by omega⟩

theorem reveals_newest (h : (numbers base (slugsOf rows scope)).Pairwise (· ≤ ·)) :
    Reveals base (topNumber base (slugsOf rows scope)) (latest? rows base scope .newest) := by
  rw [latest?]
  cases hm : (variants rows base scope).getLast? with
  | none => exact .none (topNumber_of_variants_nil (List.getLast?_eq_none_iff.mp hm))
  | some v =>
    obtain ⟨slug, ds⟩ := v
    obtain ⟨older, hvariants⟩ := List.getLast?_eq_some_iff.mp hm
    obtain ⟨hslug, hd⟩ := mem_variants.mp (List.mem_of_getLast? hm)
    refine .some hd (.inl (Nat.le_antisymm (le_topNumber hslug hd) (topNumber_le fun n hn => ?_)))
    rw [numbers_slugsOf, hvariants, List.map_append] at h hn
    rcases List.mem_append.mp hn with hn | hn
    · exact (List.pairwise_append.mp h).2.2 n hn _ List.mem_cons_self
    · rw [List.mem_singleton.mp hn]

theorem reveals_latest {order : VariantOrder}
    (h : order = .highest ∨ (numbers base (slugsOf rows scope)).Pairwise (· ≤ ·)) :
    Reveals base (topNumber base (slugsOf rows scope)) (latest? rows base scope order) := by
  cases order with
  | newest => exact reveals_newest (h.resolve_left nofun)
  | highest => exact reveals_highest rows base scope

end Registry

end Storyline
