import Mathlib.Data.List.Nodup
import Storyline.Json.Row
import Storyline.Store.Tables

/-!
# Tables that grow

Rows are only ever added, each under a number that no row had before.

* `Tables.SameRows`: the rows are the same, but numbers may have been used up;
* `Tables.Extends`: there may be further rows, under numbers that had not been used;
* `Addition`, `Tables.add`: what one query stores.
-/

namespace Storyline

namespace Table

variable {ρ : Type} {id : ρ → Int} {t t' t'' : Table ρ} {row : ρ}

/-- The same rows; numbers may have been used up. -/
structure SameRows (t t' : Table ρ) : Prop where
  rows : t'.rows = t.rows
  lastId : t.lastId ≤ t'.lastId

/-- The same rows, and perhaps further ones under numbers that had not been used. -/
structure Extends (id : ρ → Int) (t t' : Table ρ) : Prop where
  rows : ∃ added, t'.rows = t.rows ++ added ∧ ∀ row ∈ added, (t.lastId : Int) < id row
  lastId : t.lastId ≤ t'.lastId

@[refl] theorem SameRows.refl (t : Table ρ) : t.SameRows t := ⟨rfl, Nat.le_refl _⟩

theorem SameRows.trans (h : t.SameRows t') (h' : t'.SameRows t'') : t.SameRows t'' :=
  ⟨h'.rows.trans h.rows, Nat.le_trans h.lastId h'.lastId⟩

theorem sameRows_useId (t : Table ρ) : t.SameRows t.useId := ⟨rfl, Nat.le_succ _⟩

theorem SameRows.append (h : t.SameRows t') (row : ρ) : (t.append row).SameRows (t'.append row) :=
  ⟨congrArg (· ++ [row]) h.rows, Nat.succ_le_succ h.lastId⟩

theorem SameRows.extends (h : t.SameRows t') : Extends id t t' :=
  ⟨⟨[], by rw [h.rows, List.append_nil], fun _ h => (List.not_mem_nil h).elim⟩, h.lastId⟩

theorem Extends.trans (h : Extends id t t') (h' : Extends id t' t'') : Extends id t t'' := by
  obtain ⟨added, hrows, hadded⟩ := h.rows
  obtain ⟨added', hrows', hadded'⟩ := h'.rows
  refine ⟨⟨added ++ added', by rw [hrows', hrows, List.append_assoc], fun row hrow => ?_⟩,
    Nat.le_trans h.lastId h'.lastId⟩
  rcases List.mem_append.mp hrow with hrow | hrow
  · exact hadded row hrow
  · have := hadded' row hrow
    have := h.lastId
    omega

theorem extends_append (h : id row = t.nextId) : Extends id t (t.append row) := by
  refine ⟨⟨[row], rfl, fun r hr => ?_⟩, Nat.le_succ _⟩
  rw [List.mem_singleton.mp hr, h, nextId]
  omega

theorem Extends.mem (h : Extends id t t') (hrow : row ∈ t.rows) : row ∈ t'.rows := by
  obtain ⟨added, hrows, -⟩ := h.rows
  rw [hrows]
  exact List.mem_append_left _ hrow

end Table

namespace Tables

variable {t t' t'' : Tables}

/-- The same rows in every table. -/
structure SameRows (t t' : Tables) : Prop where
  loglines : t.loglines.SameRows t'.loglines
  reservations : t.reservations.SameRows t'.reservations
  plans : t.plans.SameRows t'.plans
  sheets : t.sheets.SameRows t'.sheets

/-- The rows of every table, and perhaps further ones. -/
structure Extends (t t' : Tables) : Prop where
  loglines : Table.Extends Logline.id t.loglines t'.loglines
  reservations : Table.Extends SlugReservation.id t.reservations t'.reservations
  plans : Table.Extends StoryPlan.id t.plans t'.plans
  sheets : Table.Extends BeatsSheet.id t.sheets t'.sheets

@[refl] theorem SameRows.refl (t : Tables) : t.SameRows t := ⟨.refl _, .refl _, .refl _, .refl _⟩

theorem SameRows.trans (h : t.SameRows t') (h' : t'.SameRows t'') : t.SameRows t'' :=
  ⟨h.loglines.trans h'.loglines, h.reservations.trans h'.reservations, h.plans.trans h'.plans,
    h.sheets.trans h'.sheets⟩

theorem SameRows.extends (h : t.SameRows t') : t.Extends t' :=
  ⟨h.loglines.extends, h.reservations.extends, h.plans.extends, h.sheets.extends⟩

@[refl] theorem Extends.refl (t : Tables) : t.Extends t := (SameRows.refl t).extends

theorem Extends.trans (h : t.Extends t') (h' : t'.Extends t'') : t.Extends t'' :=
  ⟨h.loglines.trans h'.loglines, h.reservations.trans h'.reservations, h.plans.trans h'.plans,
    h.sheets.trans h'.sheets⟩

/-- Undoing what was done since an earlier time leaves the rows of that time. -/
theorem Extends.rolledBack (h : t.Extends t') : t.SameRows (t'.rolledBack t) :=
  ⟨⟨rfl, h.loglines.lastId⟩, ⟨rfl, h.reservations.lastId⟩, ⟨rfl, h.plans.lastId⟩,
    ⟨rfl, h.sheets.lastId⟩⟩

end Tables

/-- What one query stores. A story plan comes with the reservation of its slug. -/
inductive Addition
  | logline (row : Logline)
  | plan (reservation : SlugReservation) (row : StoryPlan)
  | iteration (row : StoryPlan)
  | sheet (row : BeatsSheet)

/-- The row that is shown to the caller. -/
def Addition.toJson : Addition → Json
  | logline row => row.toJson
  | plan _ row | iteration row => row.toJson
  | sheet row => row.toJson

/-- The tables with an addition. -/
def Tables.add (t : Tables) : Addition → Tables
  | .logline row => { t with loglines := t.loglines.append row }
  | .plan reservation row =>
    { t with reservations := t.reservations.append reservation, plans := t.plans.append row }
  | .iteration row => { t with plans := t.plans.append row }
  | .sheet row => { t with sheets := t.sheets.append row }

theorem Tables.SameRows.add {t t' : Tables} (h : t.SameRows t') (e : Addition) :
    (t.add e).SameRows (t'.add e) := by
  cases e with
  | logline row => exact { h with loglines := h.loglines.append row }
  | plan reservation row =>
    exact { h with reservations := h.reservations.append reservation, plans := h.plans.append row }
  | iteration row => exact { h with plans := h.plans.append row }
  | sheet row => exact { h with sheets := h.sheets.append row }

/-- An addition under the next numbers. -/
def Addition.Next (t : Tables) : Addition → Prop
  | logline row => row.id = t.loglines.nextId
  | plan reservation row => reservation.id = t.reservations.nextId ∧ row.id = t.plans.nextId
  | iteration row => row.id = t.plans.nextId
  | sheet row => row.id = t.sheets.nextId

theorem Addition.Next.extends {t : Tables} {e : Addition} (h : e.Next t) : t.Extends (t.add e) := by
  have hrefl := Tables.Extends.refl t
  cases e with
  | logline row => exact { hrefl with loglines := Table.extends_append h }
  | plan reservation row =>
    exact { hrefl with reservations := Table.extends_append h.1, plans := Table.extends_append h.2 }
  | iteration row => exact { hrefl with plans := Table.extends_append h }
  | sheet row => exact { hrefl with sheets := Table.extends_append h }

/-! ## Numbered rows

* `find?_eq_some_of_nodup`: rows and their keys;
* `Table.mem_append`, `Table.forall_append`, `Table.nodup_append`: one more row;
* `Table.Numbered`: the numbers of the rows of one table, with `Table.Numbered.find?`.
-/

theorem find?_eq_some_of_nodup {α κ : Type} [DecidableEq κ] {key : α → κ} {l : List α}
    (h : (l.map key).Nodup) {k : κ} {a : α} :
    l.find? (fun b => key b = k) = some a ↔ a ∈ l ∧ key a = k := by
  constructor
  · intro hf
    exact ⟨List.mem_of_find?_eq_some hf, by simpa using List.find?_some hf⟩
  · rintro ⟨ha, rfl⟩
    cases hf : l.find? (fun b => key b = key a) with
    | none => exact absurd (decide_eq_true rfl) (List.find?_eq_none.mp hf a ha)
    | some b =>
      have hkey : key b = key a := by simpa using List.find?_some hf
      rw [List.inj_on_of_nodup_map h (List.mem_of_find?_eq_some hf) ha hkey]

/-! ### One more row -/

section Append

variable {ρ α : Type} {t : Table ρ} {row : ρ}

theorem Table.mem_append {a : ρ} : a ∈ (t.append row).rows ↔ a ∈ t.rows ∨ a = row := by
  rw [append, List.mem_append, List.mem_singleton]

theorem Table.forall_append {P : ρ → Prop} (h : ∀ a ∈ t.rows, P a) (hrow : P row) :
    ∀ a ∈ (t.append row).rows, P a := by
  intro a ha
  rcases mem_append.mp ha with ha | rfl
  · exact h a ha
  · exact hrow

theorem Table.nodup_append {f : ρ → α} (h : (t.rows.map f).Nodup)
    (hnew : ∀ a ∈ t.rows, f a ≠ f row) :
    ((t.append row).rows.map f).Nodup := by
  rw [append, List.map_append, List.map_singleton, ← List.concat_eq_append]
  refine h.concat fun hmem => ?_
  obtain ⟨a, ha, heq⟩ := List.mem_map.mp hmem
  exact hnew a ha heq

end Append

/-! ### Numbers -/

/-- The numbers of the rows are positive, grow from row to row, and have been used up. -/
structure Table.Numbered {ρ : Type} (id : ρ → Int) (t : Table ρ) : Prop where
  sorted : t.rows.Pairwise fun a b => id a < id b
  used : ∀ row ∈ t.rows, 0 < id row ∧ id row ≤ t.lastId

section Numbered

variable {ρ : Type} {id : ρ → Int} {t t' : Table ρ} {row : ρ}

theorem Table.Numbered.append (h : t.Numbered id) (hrow : id row = t.nextId) :
    (t.append row).Numbered id := by
  have hnext : id row = t.lastId + 1 := hrow
  constructor
  · rw [Table.append, List.pairwise_append]
    refine ⟨h.sorted, List.pairwise_singleton _ _, fun a ha b hb => ?_⟩
    have := (h.used a ha).2
    rw [List.mem_singleton.mp hb]
    omega
  · change ∀ a ∈ (t.append row).rows, 0 < id a ∧ id a ≤ ((t.lastId + 1 : Nat) : Int)
    refine forall_append (fun a ha => ?_) ?_
    · have := h.used a ha
      omega
    · omega

theorem Table.Numbered.of_sameRows (h : t.Numbered id) (ht : t.SameRows t') : t'.Numbered id := by
  have := ht.lastId
  refine ⟨ht.rows ▸ h.sorted, fun row hrow => ?_⟩
  have := h.used row (ht.rows ▸ hrow)
  omega

theorem Table.Numbered.nodup (h : t.Numbered id) : (t.rows.map id).Nodup :=
  (List.pairwise_map.mpr h.sorted).imp fun hlt => Int.ne_of_lt hlt

theorem Table.Numbered.find? (h : t.Numbered id) (hrow : row ∈ t.rows) :
    t.rows.find? (fun a => id a = id row) = some row :=
  (find?_eq_some_of_nodup h.nodup).mpr ⟨hrow, rfl⟩

end Numbered

end Storyline
