import Storyline.Proofs.Families
import Storyline.Proofs.Ranking

/-!
# Lookups in a registry

The latest variant in a registry is found in one pass over its rows. It is said here by its place
among the rows: the last variant, or the first of those with the largest number.

* `firstMax_eq_some_iff`: the first of the elements with the largest value;
* `Registry.Entry.IsVariant`: the rows that are looked at, each a variant of one base in one scope;
* `Registry.latest?_newest`, `Registry.latest?_highest`: the row that is found under either order;
* `Registry.latest?_eq_head?`: the row that comes first when the variants are sorted;
* **`Registry.lookups_exact`**: what a lookup answers, what makes no difference to it, and what it
  changes.
-/

namespace Storyline.Registry

open Slug

/-! ## The first of the largest -/

section Largest

variable {α : Type} {f : α → Nat} {l : List α} {a : α}

/-- All elements before it have smaller values, and none behind it has a larger one. -/
def IsFirstMax (f : α → Nat) (l : List α) (a : α) : Prop :=
  ∃ before behind, l = before ++ a :: behind ∧ (∀ b ∈ before, f b < f a) ∧ ∀ b ∈ behind, f b ≤ f a

theorem isFirstMax_cons {x : α} : IsFirstMax f (x :: l) a ↔
    (x = a ∧ ∀ b ∈ l, f b ≤ f a) ∨ f x < f a ∧ IsFirstMax f l a := by
  constructor
  · rintro ⟨before, behind, hl, hbefore, hbehind⟩
    rcases List.cons_eq_append_iff.mp hl with ⟨rfl, hl⟩ | ⟨before, rfl, rfl⟩
    · cases hl
      exact .inl ⟨rfl, hbehind⟩
    · obtain ⟨hx, hbefore⟩ := List.forall_mem_cons.mp hbefore
      exact .inr ⟨hx, before, behind, rfl, hbefore, hbehind⟩
  · rintro (⟨rfl, hl⟩ | ⟨hx, before, behind, rfl, hbefore, hbehind⟩)
    · exact ⟨[], l, rfl, nofun, hl⟩
    · exact ⟨x :: before, behind, rfl, List.forall_mem_cons.mpr ⟨hx, hbefore⟩, hbehind⟩

/-- **The element with the largest value is the first of several.** -/
theorem firstMax_eq_some_iff : firstMax f l = some a ↔ IsFirstMax f l a := by
  induction l generalizing a with
  | nil =>
    refine ⟨nofun, ?_⟩
    rintro ⟨before, behind, hl, -⟩
    exact absurd hl.symm (by simp)
  | cons x l ih =>
    rw [isFirstMax_cons, ← ih, firstMax]
    cases hmax : firstMax f l with
    | none =>
      rw [firstMax_eq_none] at hmax
      simp [hmax]
    | some y =>
      obtain ⟨hy, hle⟩ := firstMax_eq_some hmax
      by_cases hxy : f y ≤ f x
      · have hx : ∀ b ∈ l, f b ≤ f x := fun b hb => Nat.le_trans (hle b hb) hxy
        simp only [if_pos hxy, Option.some_inj]
        refine ⟨fun h => .inl ⟨h, h ▸ hx⟩, ?_⟩
        rintro (⟨h, -⟩ | ⟨hlt, rfl⟩)
        · exact h
        · omega
      · simp only [if_neg hxy, Option.some_inj]
        refine ⟨?_, ?_⟩
        · rintro rfl
          exact .inr ⟨by omega, rfl⟩
        · rintro (⟨rfl, h⟩ | ⟨-, h⟩)
          · exact absurd (h y hy) hxy
          · exact h

/-- **It is what comes first if the list is sorted** by falling values, and equal ones are left in
their order. -/
theorem head?_sortBy (f : α → Nat) (l : List α) :
    (sortBy (fun a b => decide (f b ≤ f a)) l).head? = firstMax f l := by
  induction l with
  | nil => rfl
  | cons x l ih =>
    rw [sortBy, firstMax, ← ih]
    cases sortBy (fun a b => decide (f b ≤ f a)) l with
    | nil => rfl
    | cons y ys =>
      by_cases hxy : f y ≤ f x <;> simp [insertBy, hxy]

theorem firstMax_map {β : Type} (g : β → α) (l : List β) :
    firstMax f (l.map g) = (firstMax (fun b => f (g b)) l).map g := by
  induction l with
  | nil => rfl
  | cons x l ih =>
    rw [List.map_cons, firstMax, firstMax, ih]
    cases firstMax (fun b => f (g b)) l with
    | none => rfl
    | some y => by_cases hxy : f (g y) ≤ f (g x) <;> simp [hxy]

theorem firstMax_congr {f' : α → Nat} (h : ∀ a ∈ l, f a = f' a) : firstMax f l = firstMax f' l := by
  induction l with
  | nil => rfl
  | cons x l ih =>
    obtain ⟨hx, hl⟩ := List.forall_mem_cons.mp h
    rw [firstMax, firstMax, ih hl]
    cases hmax : firstMax f' l with
    | none => rfl
    | some y => simp only [hx, hl y (firstMax_eq_some hmax).1]

end Largest

/-! ## The rows that are looked at -/

section Rows

variable {rows rows' older newer : List Entry} {row : Entry} {base base' slug : String}
  {scope scope' : Scope} {ds ds' : List Char}

/-- The row is the variant of `base` with these digits, in a scope. -/
def Entry.IsVariant (row : Entry) (base : String) (scope : Scope) (ds : List Char) : Prop :=
  row.scope = scope ∧ row.slug = base ++ "-" ++ String.ofList ds ∧ ds ≠ [] ∧ ∀ c ∈ ds, c.isDigit

theorem dashed_eq_append (base : String) (ds : List Char) :
    dashed base ds = base ++ "-" ++ String.ofList ds := by
  apply String.toList_injective
  simp [dashed]

theorem Entry.isVariant_iff :
    row.IsVariant base scope ds ↔ row.scope = scope ∧ suffix? base row.slug = some ds := by
  rw [IsVariant, suffix?_eq_some, dashed_eq_append]

/-- **A row is a variant of one base**, in one scope and with one number. -/
theorem Entry.IsVariant.unique (h : row.IsVariant base scope ds)
    (h' : row.IsVariant base' scope' ds') :
    base = base' ∧ scope = scope' ∧ ds = ds' := by
  obtain ⟨hscope, hslug, -, hd⟩ := h
  obtain ⟨hscope', hslug', -, hd'⟩ := h'
  rw [← dashed_eq_append] at hslug hslug'
  obtain ⟨hbase, hds⟩ := dashed_inj hd hd' (hslug.symm.trans hslug')
  exact ⟨hbase, hscope.symm.trans hscope', hds⟩

/-- The slug of a row and its digits, if it is a variant of `base` in a scope. -/
def variant? (base : String) (scope : Scope) (row : Entry) : Option (String × List Char) :=
  if row.scope = scope then (suffix? base row.slug).map fun ds => (row.slug, ds) else none

theorem variant?_eq_some : variant? base scope row = some (slug, ds) ↔
    row.slug = slug ∧ row.IsVariant base scope ds := by
  rw [variant?, Entry.isVariant_iff]
  split_ifs with hscope
  · simp [hscope, and_comm]
  · simp [hscope]

theorem variant?_eq_none : variant? base scope row = none ↔ ∀ ds, ¬row.IsVariant base scope ds := by
  constructor
  · intro h ds hds
    cases h.symm.trans (variant?_eq_some.mpr ⟨rfl, hds⟩)
  · intro h
    cases hv : variant? base scope row with
    | none => rfl
    | some v => exact absurd (variant?_eq_some.mp hv).2 (h v.2)

instance (row : Entry) (base : String) (scope : Scope) :
    Decidable (∃ ds, row.IsVariant base scope ds) :=
  decidable_of_iff (variant? base scope row ≠ none) (by rw [Ne, variant?_eq_none]; simp)

theorem variants_eq_filterMap (rows : List Entry) (base : String) (scope : Scope) :
    variants rows base scope = rows.filterMap (variant? base scope) := by
  rw [variants, List.filterMap_filter]
  congr 1
  funext row
  simp [variant?]

theorem variants_eq_nil :
    variants rows base scope = [] ↔ ∀ row ∈ rows, ∀ ds, ¬row.IsVariant base scope ds := by
  simp only [variants_eq_filterMap, List.filterMap_eq_nil_iff, variant?_eq_none]

theorem forall_variants {p : String × List Char → Prop} : (∀ v ∈ variants rows base scope, p v) ↔
    ∀ row ∈ rows, ∀ ds, row.IsVariant base scope ds → p (row.slug, ds) := by
  simp only [variants_eq_filterMap, List.mem_filterMap]
  constructor
  · exact fun h row hrow ds hds => h (row.slug, ds) ⟨row, hrow, variant?_eq_some.mpr ⟨rfl, hds⟩⟩
  · rintro h ⟨slug, ds⟩ ⟨row, hrow, hv⟩
    obtain ⟨rfl, hds⟩ := variant?_eq_some.mp hv
    exact h row hrow ds hds

theorem variants_eq_append_cons {before behind : List (String × List Char)} :
    variants rows base scope = before ++ (slug, ds) :: behind ↔
      ∃ older row newer, rows = older ++ row :: newer ∧
      row.slug = slug ∧ row.IsVariant base scope ds ∧ variants older base scope = before ∧
        variants newer base scope = behind := by
  simp only [variants_eq_filterMap]
  constructor
  · intro h
    obtain ⟨l, l', rfl, hl, hl'⟩ := List.filterMap_eq_append_iff.mp h
    obtain ⟨skipped, row, newer, rfl, hskipped, hrow, hnewer⟩ := List.filterMap_eq_cons_iff.mp hl'
    obtain ⟨hslug, hds⟩ := variant?_eq_some.mp hrow
    refine ⟨l ++ skipped, row, newer, (List.append_assoc ..).symm, hslug, hds, ?_, hnewer⟩
    rw [List.filterMap_append, hl, List.filterMap_eq_nil_iff.mpr hskipped, List.append_nil]
  · rintro ⟨older, row, newer, rfl, hslug, hds, rfl, rfl⟩
    rw [List.filterMap_append, List.filterMap_cons, variant?_eq_some.mpr ⟨hslug, hds⟩]

/-! ## The row that is found -/

theorem latest?_eq_none {order : VariantOrder} : latest? rows base scope order = none ↔
    ∀ row ∈ rows, ∀ ds, ¬row.IsVariant base scope ds := by
  rw [← variants_eq_nil]
  cases order with
  | newest => rw [latest?, Option.map_eq_none_iff, List.getLast?_eq_none_iff]
  | highest => rw [latest?, Option.map_eq_none_iff, firstMax_eq_none]

/-- **By age the last variant is found.** -/
theorem latest?_newest : latest? rows base scope .newest = some slug ↔ ∃ older row newer ds,
    rows = older ++ row :: newer ∧ row.slug = slug ∧ row.IsVariant base scope ds ∧
      ∀ other ∈ newer, ∀ ds', ¬other.IsVariant base scope ds' := by
  simp only [latest?, Option.map_eq_some_iff, List.getLast?_eq_some_iff]
  constructor
  · rintro ⟨⟨slug, ds⟩, ⟨before, h⟩, rfl⟩
    obtain ⟨older, row, newer, hrows, hslug, hds, -, hnewer⟩ := variants_eq_append_cons.mp h
    exact ⟨older, row, newer, ds, hrows, hslug, hds, variants_eq_nil.mp hnewer⟩
  · rintro ⟨older, row, newer, ds, hrows, hslug, hds, hnewer⟩
    refine ⟨(slug, ds), ⟨variants older base scope, ?_⟩, rfl⟩
    exact variants_eq_append_cons.mpr ⟨older, row, newer, hrows, hslug, hds, rfl,
      variants_eq_nil.mpr hnewer⟩

/-- **By number the first of the largest variants is found**, where numbers above the cap count as
the cap. -/
theorem latest?_highest : latest? rows base scope .highest = some slug ↔ ∃ older row newer ds,
    rows = older ++ row :: newer ∧ row.slug = slug ∧ row.IsVariant base scope ds ∧
      (∀ other ∈ older, ∀ ds', other.IsVariant base scope ds' →
        min (suffixValue ds') suffixCap < min (suffixValue ds) suffixCap) ∧
      ∀ other ∈ newer, ∀ ds', other.IsVariant base scope ds' →
        min (suffixValue ds') suffixCap ≤ min (suffixValue ds) suffixCap := by
  simp only [latest?, Option.map_eq_some_iff, firstMax_eq_some_iff]
  constructor
  · rintro ⟨⟨slug, ds⟩, ⟨before, behind, h, hbefore, hbehind⟩, rfl⟩
    obtain ⟨older, row, newer, hrows, hslug, hds, rfl, rfl⟩ := variants_eq_append_cons.mp h
    exact ⟨older, row, newer, ds, hrows, hslug, hds, forall_variants.mp hbefore,
      forall_variants.mp hbehind⟩
  · rintro ⟨older, row, newer, ds, hrows, hslug, hds, holder, hnewer⟩
    refine ⟨(slug, ds), ⟨variants older base scope, variants newer base scope, ?_, ?_, ?_⟩, rfl⟩
    · exact variants_eq_append_cons.mpr ⟨older, row, newer, hrows, hslug, hds, rfl, rfl⟩
    · exact forall_variants.mpr holder
    · exact forall_variants.mpr hnewer

theorem latest?_congr (h : rows'.filter (fun row => ∃ ds, row.IsVariant base scope ds) =
    rows.filter fun row => ∃ ds, row.IsVariant base scope ds) (order : VariantOrder) :
    latest? rows' base scope order = latest? rows base scope order := by
  have hvariants (rows : List Entry) :
    variants (rows.filter fun row => ∃ ds, row.IsVariant base scope ds) base scope =
      variants rows base scope := by
    rw [variants_eq_filterMap, variants_eq_filterMap, List.filterMap_filter]
    congr 1
    funext row
    simp only [decide_eq_true_eq, ite_eq_left_iff, not_exists]
    exact fun hrow => (variant?_eq_none.mpr hrow).symm
  have heq : variants rows' base scope = variants rows base scope := by
    rw [← hvariants rows', h, hvariants]
  cases order <;> simp only [latest?, heq]

/-! ## Sorted variants -/

/-- What variants are sorted by, each with its position: the position itself, or the number that is
read from the digits, which is the cap if they have a larger one. -/
def sortKey : VariantOrder → (String × List Char) × Nat → Nat
  | .newest, v => v.2
  | .highest, v => (Numeral.read suffixCap v.1.2).toOption.getD suffixCap

theorem rank_eq (hne : ds ≠ []) (hd : ∀ c ∈ ds, c.isDigit) :
    rank (slug, ds) = (Numeral.read suffixCap ds).toOption.getD suffixCap := by
  rw [Numeral.read_digits hne hd, rank, suffixValue]
  split_ifs with hle
  · exact Nat.min_eq_left hle
  · exact Nat.min_eq_right (Nat.le_of_not_le hle)

/-- **The latest variant comes first** if the variants are sorted by falling keys, and those with
equal keys are left in their order. -/
theorem latest?_eq_head? (rows : List Entry) (base : String) (scope : Scope)
    (order : VariantOrder) :
    latest? rows base scope order =
      (sortBy (fun v w => decide (sortKey order w ≤ sortKey order v))
        (variants rows base scope).zipIdx).head?.map
        fun v => v.1.1 := by
  rw [head?_sortBy]
  cases order with
  | newest =>
    rcases List.eq_nil_or_concat (variants rows base scope) with hnil | ⟨older, v, hlast⟩
    · rw [latest?, hnil]
      rfl
    · have hmax : firstMax (sortKey .newest) (older ++ [v]).zipIdx = some (v, older.length) := by
        refine firstMax_eq_some_iff.mpr ⟨older.zipIdx, [], ?_, ?_, ?_⟩
        · rw [List.zipIdx_append, Nat.zero_add]
          rfl
        · exact fun w hw => List.snd_lt_of_mem_zipIdx hw
        · exact fun w hw => absurd hw List.not_mem_nil
      rw [latest?, hlast, List.concat_eq_append, hmax, List.getLast?_concat]
      rfl
  | highest =>
    have hrank : ∀ v ∈ variants rows base scope,
        rank v = (Numeral.read suffixCap v.2).toOption.getD suffixCap := by
      refine forall_variants.mpr ?_
      rintro row - ds ⟨-, -, hne, hd⟩
      exact rank_eq hne hd
    have hkey : ∀ v ∈ (variants rows base scope).zipIdx, sortKey .highest v = rank v.1 :=
      fun v hv => (hrank v.1 (List.fst_mem_of_mem_zipIdx hv)).symm
    have hmax : firstMax rank (variants rows base scope) =
        (firstMax (fun v => rank v.1) (variants rows base scope).zipIdx).map Prod.fst := by
      rw [← firstMax_map, List.zipIdx_map_fst]
    rw [latest?, hmax, firstMax_congr hkey, Option.map_map]
    rfl

end Rows

/-- **The latest variant is looked up exactly.** Nothing is found if the scope has no row with the
base, a hyphen and digits for its slug. Otherwise the last such row is found by age, and by number
the earliest of those with the largest number, where all numbers from `2 ^ 128 - 1` on count as
equal. No other row makes a difference, in particular none of another scope or with a variant of
another base, and no row is changed. -/
theorem lookups_exact (r : Registry) (base : String) (scope : Scope)
    (hlookup : r.lookupFails = false) :
    let found := latest? r.rows base scope
    let value (ds : List Char) := min (Nat.ofDigitChars 10 ds 0) (2 ^ 128 - 1)
    (∀ order, handle (.latest base scope order) r = (.ok (found order), { r with
      lookups := r.lookups + 1 })) ∧
      (∀ order, found order = none ↔ ∀ row ∈ r.rows, ∀ ds, ¬row.IsVariant base scope ds) ∧
      (∀ slug, found .newest = some slug ↔ ∃ older row newer ds, r.rows = older ++ row :: newer ∧
        row.slug = slug ∧
        row.IsVariant base scope ds ∧ ∀ other ∈ newer, ∀ ds', ¬other.IsVariant base scope ds') ∧
      (∀ slug, found .highest = some slug ↔ ∃ older row newer ds, r.rows = older ++ row :: newer ∧
        row.slug = slug ∧
        row.IsVariant base scope ds ∧
        (∀ other ∈ older, ∀ ds', other.IsVariant base scope ds' → value ds' < value ds) ∧
        ∀ other ∈ newer, ∀ ds', other.IsVariant base scope ds' → value ds' ≤ value ds) ∧
      (∀ rows, (rows.filter fun row => ∃ ds, row.IsVariant base scope ds) =
          (r.rows.filter fun row => ∃ ds, row.IsVariant base scope ds) → ∀ order,
        (handle (.latest base scope order) { r with rows }).1 =
          (handle (.latest base scope order) r).1) ∧
      ∀ (row : Entry) base' scope' ds', row.IsVariant base' scope' ds' → base' ≠ base ∨
        scope' ≠ scope →
        ∀ ds, ¬row.IsVariant base scope ds := by
  intro found value
  have hhandle (rows : List Entry) (order : VariantOrder) :
    handle (.latest base scope order) { r with rows } =
      (.ok (latest? rows base scope order), { r with rows, lookups := r.lookups + 1 }) := by
    simp [handle, hlookup]
  refine ⟨hhandle r.rows, fun order => latest?_eq_none, fun slug => latest?_newest,
    fun slug => latest?_highest, fun rows hrows order => ?_,
      fun row base' scope' ds' hrow' hne ds hrow => ?_⟩
  · rw [hhandle, hhandle r.rows, latest?_congr hrows]
  · obtain ⟨hbase, hscope, -⟩ := hrow'.unique hrow
    exact hne.elim (fun h => h hbase) fun h => h hscope

/-- Two numbers above the cap, of which the first is found although the second is larger, between
rows that do not count: of another user, of other bases, and without digits. -/
theorem lookups_exact_capped :
    let r : Registry :=
      { rows := [⟨"a-340282366920938463463374607431768211454", .user 1⟩, ⟨"a-1-9", .user 1⟩,
        ⟨"a-", .user 1⟩,
          ⟨"a-0340282366920938463463374607431768211456", .user 1⟩, ⟨"aa-9", .user 1⟩,
          ⟨"a-999999999999999999999999999999999999999999", .user 1⟩, ⟨"a-3", .user 1⟩,
          ⟨"a-8", .user 2⟩] }
    r.lookupFails = false ∧
      handle (.latest "a" (.user 1) .newest) r = (.ok (some "a-3"), { r with lookups := 1 }) ∧
      handle (.latest "a" (.user 1) .highest) r =
        (.ok (some "a-0340282366920938463463374607431768211456"), { r with lookups := 1 }) := by
  intro r
  have hnewest : latest? r.rows "a" (.user 1) .newest = some "a-3" := by decide +kernel
  have hhighest : latest? r.rows "a" (.user 1) .highest =
      some "a-0340282366920938463463374607431768211456" := by
    decide +kernel
  obtain ⟨hhandle, -⟩ := lookups_exact r "a" (.user 1) rfl
  refine ⟨rfl, ?_, ?_⟩
  · rw [hhandle, hnewest]
  · rw [hhandle, hhighest]

end Storyline.Registry
