import Mathlib.Data.List.Nodup
import Storyline.Json.Value

/-!
# Fields of records

What a record is read from, told without the order in which its parts are read: an object gives
every field its value, wherever the member of its name stands, and an array does so by the places of
its items.

* `Draft.field`: what stands for a field in a draft; `Supplied`: the value that it gives the field;
* `Record.ofMembers_eq_ok`, `Record.ofItems_eq_ok`: a record from members, and from items, with
  **`Record.suppliedBy_of_read`** for both;
* `Given`, `Record.Fits`, `Placed`, `Record.Lists`: the same for values, with `Given.of_perm`,
  **`Record.read_obj`** and **`Record.read_arr`**;
* `itemsOf_eq_ok`, `items_eq_ok`: arrays of what is read alike.
-/

namespace Storyline.Json

theorem map_eq_ok {φ α β : Type} {f : α → β} {x : Except φ α} {b : β} :
    x.map f = .ok b ↔ ∃ a, x = .ok a ∧ f a = b := by
  cases x <;> simp [Except.map]

/-! ## Values that are passed over -/

mutual

theorem skip_ofJson : ∀ j : Json, (Draft.ofJson j).skip = .ok ()
  | .null | .bool _ | .int _ | .real _ | .str _ => rfl
  | .arr items => skip_ofList items
  | .obj ms => skip_ofMembers ms

theorem skip_ofList : ∀ items : List Json, (Draft.Items.ofList items).skip = .ok ()
  | [] => rfl
  | item :: items => by
    rw [Draft.Items.ofList, Draft.Items.skip, skip_ofJson item]
    exact skip_ofList items

theorem skip_ofMembers : ∀ ms : List (String × Json), (Draft.Members.ofList ms).skip = .ok ()
  | [] => rfl
  | (_, value) :: ms => by
    rw [Draft.Members.ofList, Draft.Members.skip, skip_ofJson value]
    exact skip_ofMembers ms

end

/-! ## Drafts -/

namespace Draft

/-- The values of the members of one name, as far as members can be read. -/
def Members.named (name : String) : Members → List Draft
  | .cons key value rest => if key = some name then value :: rest.named name else rest.named name
  | _ => []

/-- The items, as far as they can be read. -/
def Items.toList : Items → List Draft
  | .cons item rest => item :: rest.toList
  | _ => []

/-- What stands for a field: in an object the members of its name, in an array the item at its
place. -/
def field (name : String) (place : Nat) : Draft → List Draft
  | .obj members => members.named name
  | .arr items => items.toList[place]?.toList
  | _ => []

/-- The value that stands for a field which an object does not have, or which an array ends
before. -/
def missing {α : Type} (absent short : Option α) : Draft → Option α
  | .arr _ => short
  | _ => absent

/-- The members can be read to the end: what is of no name among `names` is passed over. -/
def Members.Readable (names : List String) : Members → Prop
  | .nil => True
  | .cons (some key) value rest => (key ∉ names → value.skip = .ok ()) ∧ rest.Readable names
  | _ => False

/-- The items can be read to the end. -/
def Items.Whole : Items → Prop
  | .nil => True
  | .cons _ rest => rest.Whole
  | .broken _ => False

end Draft

section Supplied

variable {α : Type} {read : Reader α} {default : Option α} {values : List Draft} {d : Draft} {a : α}

/-- A field gets its value from what stands for it: from just one draft, or from none if there is a
value for this case. -/
inductive Supplied (read : Reader α) (default : Option α) (values : List Draft) (a : α) : Prop
  | present {d : Draft} (hone : values = [d]) (hread : read d = .ok a)
  | absent (hnone : values = []) (hdefault : default = some a)

theorem supplied_nil : Supplied read default [] a ↔ default = some a :=
  ⟨fun | .present hone _ => by cases hone
       | .absent _ h => h, .absent rfl⟩

theorem supplied_cons : Supplied read default (d :: values) a ↔ read d = .ok a ∧ values = [] := by
  constructor
  · rintro (⟨hone, hread⟩ | ⟨hnone, -⟩)
    · cases hone
      exact ⟨hread, rfl⟩
    · cases hnone
  · rintro ⟨hread, rfl⟩
    exact .present rfl hread

theorem supplied_refused {value : α} :
    Supplied (fun _ => .error .shape) (some value) values a ↔ value = a ∧ values = [] := by
  constructor
  · rintro (⟨-, hread⟩ | ⟨hnone, hdefault⟩)
    · cases hread
    · exact ⟨Option.some.inj hdefault, hnone⟩
  · rintro ⟨rfl, hnone⟩
    exact .absent hnone rfl

theorem Supplied.of_missing {absent short : Option α}
    (h : Supplied read (d.missing absent short) values a) (hshort : short = none ∨ short = absent) :
    Supplied read absent values a := by
  rcases h with ⟨hone, hread⟩ | ⟨hnone, hdefault⟩
  · exact .present hone hread
  · refine .absent hnone ?_
    cases d with
    | arr items =>
      rcases hshort with rfl | rfl
      · cases hdefault
      · exact hdefault
    | _ => exact hdefault

end Supplied

/-! ## Objects -/

namespace Record

variable {τ σ : Type}

/-- The names of the fields. -/
def names : {τ σ : Type} → Record τ σ → List String
  | _, _, .done => []
  | _, _, .field name _ _ _ rest => name :: rest.names

/-- The members give every field its value. -/
def InMembers : {τ σ : Type} → Record τ σ → Draft.Members → τ → Prop
  | _, _, .done, _, _ => True
  | _, _, .field name read absent _ rest, members, (a, b) =>
    Supplied read absent (members.named name) a ∧ rest.InMembers members b

/-- The record after some fields have been read: they refuse to be read again, and have their
values. -/
def after : {τ σ : Type} → Record τ σ → σ → Record τ σ
  | _, _, .done, _ => .done
  | _, _, .field name read absent short rest, (slot, slots) =>
    .field name (if slot.isSome then fun _ => .error .shape else read) (slot.or absent) short
      (rest.after slots)

theorem after_blank (r : Record τ σ) : r.after r.blank = r := by
  induction r with
  | done => rfl
  | field name read absent short rest ih => rw [blank, after, ih]; rfl

theorem names_after (r : Record τ σ) (slots : σ) : (r.after slots).names = r.names := by
  induction r with
  | done => rfl
  | field name read absent short rest ih => exact congrArg (name :: ·) (ih slots.2)

theorem close_eq_ok {r : Record τ σ} {slots : σ} {t : τ} :
    r.close slots = .ok t ↔ (r.after slots).InMembers .nil t := by
  induction r with
  | done => exact ⟨fun _ => trivial, fun _ => rfl⟩
  | field name read absent short rest ih =>
    obtain ⟨slot, slots⟩ := slots
    obtain ⟨a, b⟩ := t
    simp only [close, after, InMembers, Draft.Members.named, supplied_nil, ← ih]
    cases slot.or absent with
    | none => simp
    | some a' =>
      simp only [map_eq_ok, Prod.mk.injEq, Option.some.injEq]
      exact ⟨fun ⟨b', hb, ha, hb'⟩ => ⟨ha, hb' ▸ hb⟩, fun ⟨ha, hb⟩ => ⟨b, hb, ha, rfl⟩⟩

theorem fill?_eq_none {r : Record τ σ} {key : String} {d : Draft} {slots : σ} :
    r.fill? key d slots = none ↔ key ∉ r.names := by
  induction r with
  | done => simp [fill?, names]
  | field name read absent short rest ih =>
    by_cases hkey : name = key
    · simp [fill?, names, hkey]
    · simp [fill?, names, hkey, Ne.symm hkey, ih]

section Members

variable {r : Record τ σ} {key : String} {d : Draft} {members : Draft.Members}

theorem inMembers_cons_of_notMem (h : key ∉ r.names) {t : τ} :
    r.InMembers (.cons (some key) d members) t ↔ r.InMembers members t := by
  induction r with
  | done => exact Iff.rfl
  | field name read absent short rest ih =>
    obtain ⟨hname, hrest⟩ := not_or.mp (List.mem_cons.not.mp h)
    have hnamed : (Draft.Members.cons (some key) d members).named name = members.named name :=
      if_neg fun h => hname (Option.some.inj h)
    exact and_congr (by rw [hnamed]) (ih hrest)

theorem inMembers_cons (hr : r.names.Nodup) (slots : σ) {t : τ} :
    (r.after slots).InMembers (.cons (some key) d members) t ↔
      match r.fill? key d slots with
      | none => (r.after slots).InMembers members t
      | some (.error _) => False
      | some (.ok slots) => (r.after slots).InMembers members t := by
  induction r with
  | done => exact Iff.rfl
  | field name read absent short rest ih =>
    obtain ⟨slot, slots⟩ := slots
    obtain ⟨a, b⟩ := t
    obtain ⟨hname, hrest⟩ := List.nodup_cons.mp hr
    by_cases hkey : name = key
    · subst hkey
      have hb : (rest.after slots).InMembers (.cons (some name) d members) b ↔
          (rest.after slots).InMembers members b := inMembers_cons_of_notMem (by rwa [names_after])
      simp only [fill?, if_pos, after, InMembers, Draft.Members.named, supplied_cons, hb]
      cases slot with
      | some value => simp
      | none =>
        cases hread : read d with
        | error fault => simp [Except.map, hread]
        | ok value =>
          change (read d = .ok a ∧ _) ∧ _ ↔
            Supplied (fun _ => .error .shape) (some value) (members.named name) a ∧ _
          rw [hread, supplied_refused, Except.ok.injEq]
    · have hne : ¬some key = some name := fun h => hkey (Option.some.inj h).symm
      simp only [fill?, if_neg hkey, after, InMembers, Draft.Members.named, if_neg hne, ih hrest]
      cases rest.fill? key d slots with
      | none => rfl
      | some x =>
        cases x with
        | error fault => simp [Except.map]
        | ok slots => rfl

/-- **A record is read from members**, after some fields have been read, exactly if they can be read
and give every field its value. -/
theorem ofMembers_eq_ok (hr : r.names.Nodup) : ∀ (members : Draft.Members) {slots : σ} {t : τ},
    r.ofMembers members slots = .ok t ↔ members.Readable r.names ∧
      (r.after slots).InMembers members t
  | .nil, slots, t => by rw [ofMembers, close_eq_ok, Draft.Members.Readable, true_and]
  | .broken _ _, slots, t => by simp [ofMembers, Draft.Members.Readable]
  | .cons none _ _, slots, t => by simp [ofMembers, Draft.Members.Readable]
  | .cons (some key) d rest, slots, t => by
    rw [ofMembers, Draft.Members.Readable, inMembers_cons hr]
    cases hfill : r.fill? key d slots with
    | none =>
      have hkey := fill?_eq_none.mp hfill
      cases hskip : d.skip with
      | error fault => simp [hkey]
      | ok u => simp [ofMembers_eq_ok hr rest]
    | some x =>
      have hkey : key ∈ r.names := by
        by_contra hkey
        rw [fill?_eq_none.mpr hkey] at hfill
        cases hfill
      cases x with
      | error fault => simp
      | ok slots => simp [hkey, ofMembers_eq_ok hr rest]

end Members

/-! ## Arrays -/

/-- The items from a place on give every field its value, and there are no others. -/
def InItems : {τ σ : Type} → Record τ σ → (place : Nat) → List Draft → τ → Prop
  | _, _, .done, place, items, _ => items.length ≤ place
  | _, _, .field _ read _ short rest, place, items, (a, b) =>
    Supplied read short items[place]?.toList a ∧ rest.InItems (place + 1) items b

theorem shortened_eq_ok {r : Record τ σ} {place : Nat} {items : List Draft}
    (h : items.length ≤ place) {t : τ} : r.shortened = .ok t ↔ r.InItems place items t := by
  induction r generalizing place with
  | done => exact ⟨fun _ => h, fun _ => rfl⟩
  | field name read absent short rest ih =>
    obtain ⟨a, b⟩ := t
    rw [InItems, List.getElem?_eq_none h, Option.toList_none, supplied_nil,
      ← ih (Nat.le_succ_of_le h)]
    cases short with
    | none => simp [shortened]
    | some value =>
      rw [shortened]
      cases rest.shortened <;> simp [Except.map]

/-- **A record is read from items**, behind others, exactly if these are whole and give every field
its value, place by place. -/
theorem ofItems_eq_ok {r : Record τ σ} (before : List Draft) {items : Draft.Items} {t : τ} :
    r.ofItems items = .ok t ↔
      items.Whole ∧ r.InItems before.length (before ++ items.toList) t := by
  induction r generalizing before items with
  | done =>
    cases items with
    | nil => simp [ofItems, shortened, InItems, Draft.Items.Whole, Draft.Items.toList]
    | cons item items => simp [ofItems, InItems, Draft.Items.toList]
    | broken fault => simp [ofItems, Draft.Items.Whole]
  | field name read absent short rest ih =>
    cases items with
    | nil =>
      change _ ↔ True ∧ InItems _ before.length (before ++ []) t
      rw [true_and, List.append_nil]
      exact shortened_eq_ok (Nat.le_refl _)
    | cons item items =>
      obtain ⟨a, b⟩ := t
      have hitem : (before ++ item :: items.toList)[before.length]?.toList = [item] := by simp
      have hrest := @ih (before ++ [item]) items b
      rw [List.length_append, List.append_assoc] at hrest
      rw [ofItems, Draft.Items.toList, InItems, hitem, supplied_cons, and_iff_left rfl]
      cases read item with
      | error fault => simp
      | ok value =>
        simp only [map_eq_ok, Prod.mk.injEq, Except.ok.injEq]
        constructor
        · rintro ⟨b, hb, rfl, rfl⟩
          exact ⟨(hrest.mp hb).1, rfl, (hrest.mp hb).2⟩
        · rintro ⟨hwhole, rfl, hb⟩
          exact ⟨b, hrest.mpr ⟨hwhole, hb⟩, rfl, rfl⟩
    | broken fault => simp [ofItems, Draft.Items.Whole]

/-! ## Both forms -/

/-- A draft gives every field its value, where the first field has a place of its own. -/
def SuppliedBy : {τ σ : Type} → Record τ σ → (place : Nat) → Draft → τ → Prop
  | _, _, .done, _, _, _ => True
  | _, _, .field name read absent short rest, place, d, (a, b) =>
    Supplied read (d.missing absent short) (d.field name place) a ∧ rest.SuppliedBy (place + 1) d b

theorem InMembers.suppliedBy {r : Record τ σ} {members : Draft.Members} {t : τ}
    (h : r.InMembers members t) (place : Nat) : r.SuppliedBy place (.obj members) t := by
  induction r generalizing place with
  | done => trivial
  | field name read absent short rest ih => exact ⟨h.1, ih h.2 (place + 1)⟩

theorem InItems.suppliedBy {r : Record τ σ} {place : Nat} {items : Draft.Items} {t : τ}
    (h : r.InItems place items.toList t) : r.SuppliedBy place (.arr items) t := by
  induction r generalizing place with
  | done => trivial
  | field name read absent short rest ih => exact ⟨h.1, ih h.2⟩

/-- **What a record is read from gives every field its value.** -/
theorem suppliedBy_of_read {r : Record τ σ} (hr : r.names.Nodup) {d : Draft} {t : τ}
    (h : r.read d = .ok t) : r.SuppliedBy 0 d t := by
  cases d with
  | obj members =>
    obtain ⟨-, hin⟩ := (ofMembers_eq_ok hr members).mp h
    rw [after_blank] at hin
    exact hin.suppliedBy 0
  | arr items => exact ((ofItems_eq_ok []).mp h).2.suppliedBy
  | _ => cases h

end Record

/-! ## Lists -/

theorem itemsOf_eq_ok {α : Type} {read : Reader α} : ∀ (items : Draft.Items) {as : List α},
    Reader.itemsOf read items = .ok as ↔
      items.Whole ∧ List.Forall₂ (fun d a => read d = .ok a) items.toList as
  | .nil, as => by cases as <;> simp [Reader.itemsOf, Draft.Items.Whole, Draft.Items.toList]
  | .broken fault, as => by simp [Reader.itemsOf, Draft.Items.Whole]
  | .cons item items, as => by
    rw [Reader.itemsOf, Draft.Items.Whole, Draft.Items.toList]
    cases hread : read item with
    | error fault => cases as <;> simp [hread]
    | ok a =>
      cases as with
      | nil => simp [map_eq_ok]
      | cons a' as =>
        simp only [map_eq_ok, itemsOf_eq_ok items, List.forall₂_cons, hread, Except.ok.injEq,
          List.cons.injEq]
        constructor
        · rintro ⟨as, ⟨hwhole, has⟩, rfl, rfl⟩
          exact ⟨hwhole, rfl, has⟩
        · rintro ⟨hwhole, rfl, has⟩
          exact ⟨as, ⟨hwhole, has⟩, rfl, rfl⟩

/-! ## Values -/

/-- The members of one name. -/
abbrev membersOf (name : String) (ms : List (String × Json)) : List (String × Json) :=
  ms.filter (·.1 = name)

theorem named_ofList (name : String) (ms : List (String × Json)) :
    (Draft.Members.ofList ms).named name = (membersOf name ms).map fun m => Draft.ofJson m.2 := by
  induction ms with
  | nil => rfl
  | cons m ms ih =>
    obtain ⟨key, j⟩ := m
    by_cases hkey : key = name
    · simp [Draft.Members.ofList, Draft.Members.named, hkey, ih]
    · simp [Draft.Members.ofList, Draft.Members.named, hkey, ih]

theorem toList_ofList (items : List Json) :
    (Draft.Items.ofList items).toList = items.map Draft.ofJson := by
  induction items with
  | nil => rfl
  | cons item items ih => exact congrArg (Draft.ofJson item :: ·) ih

theorem readable_ofList (names : List String) (ms : List (String × Json)) :
    (Draft.Members.ofList ms).Readable names := by
  induction ms with
  | nil => trivial
  | cons m ms ih => exact ⟨fun _ => skip_ofJson m.2, ih⟩

theorem whole_ofList (items : List Json) : (Draft.Items.ofList items).Whole := by
  induction items with
  | nil => trivial
  | cons item items ih => exact ih

section Given

variable {α : Type} {name : String} {read : Reader α} {absent short : Option α}
  {ms ms' : List (String × Json)} {items : List Json} {a : α}

/-- The members give a field its value: just one of them has the name of the field, or none has and
there is a value that stands for it. -/
inductive Given (name : String) (read : Reader α) (absent : Option α) (ms : List (String × Json))
    (a : α) : Prop
  | present {j : Json} (hone : membersOf name ms = [(name, j)]) (hread : read (.ofJson j) = .ok a)
  | absent (hnone : membersOf name ms = []) (habsent : absent = some a)

theorem given_iff :
    Given name read absent ms a ↔
      Supplied read absent ((Draft.Members.ofList ms).named name) a := by
  rw [named_ofList]
  constructor
  · rintro (⟨hone, hread⟩ | ⟨hnone, habsent⟩)
    · exact .present (by rw [hone]; rfl) hread
    · exact .absent (by rw [hnone]; rfl) habsent
  · rintro (⟨hone, hread⟩ | ⟨hnone, habsent⟩)
    · obtain ⟨⟨key, j⟩, hm, rfl⟩ := List.map_eq_singleton_iff.mp hone
      have hmem : (key, j) ∈ membersOf name ms := by
        rw [hm]
        exact List.mem_cons_self
      have hkey : key = name := by simpa using (List.mem_filter.mp hmem).2
      exact .present (hkey ▸ hm) hread
    · exact .absent (List.map_eq_nil_iff.mp hnone) habsent

theorem Given.of_perm (h : (membersOf name ms').Perm (membersOf name ms))
    (hms : Given name read absent ms a) : Given name read absent ms' a := by
  cases hms with
  | present hone hread =>
    rw [hone] at h
    exact .present h.eq_singleton hread
  | absent hnone habsent =>
    rw [hnone] at h
    exact .absent h.eq_nil habsent

/-- What stands at its place in an array gives a field its value; where the array has ended, what
stands for the field does. -/
def Placed (read : Reader α) (short : Option α) : Option Json → α → Prop
  | none, a => short = some a
  | some j, a => read (.ofJson j) = .ok a

theorem placed_iff {place : Nat} : Placed read short items[place]? a ↔
    Supplied read short (items.map Draft.ofJson)[place]?.toList a := by
  rw [List.getElem?_map]
  cases items[place]? with
  | none => exact supplied_nil.symm
  | some j => simp [Placed, supplied_cons]

end Given

namespace Record

variable {τ σ : Type} {r : Record τ σ} {t : τ}

/-- The members give every field its value. -/
def Fits : {τ σ : Type} → Record τ σ → List (String × Json) → τ → Prop
  | _, _, .done, _, _ => True
  | _, _, .field name read absent _ rest, ms, (a, b) => Given name read absent ms a ∧ rest.Fits ms b

theorem fits_iff {ms : List (String × Json)} : r.Fits ms t ↔ r.InMembers (.ofList ms) t := by
  induction r with
  | done => exact Iff.rfl
  | field name read absent short rest ih => exact and_congr given_iff ih

/-- **A record is read from an object** exactly if the members give every field its value. -/
theorem read_obj {ms : List (String × Json)} (hr : r.names.Nodup) :
    r.read (.ofJson (.obj ms)) = .ok t ↔ r.Fits ms t := by
  have h : r.ofMembers (.ofList ms) r.blank = .ok t ↔ _ := ofMembers_eq_ok hr _
  rwa [and_iff_right (readable_ofList _ _), after_blank, ← fits_iff] at h

/-- The items from a place on give every field its value, and there are no others. -/
def Lists : {τ σ : Type} → Record τ σ → (place : Nat) → List Json → τ → Prop
  | _, _, .done, place, items, _ => items.length ≤ place
  | _, _, .field _ read _ short rest, place, items, (a, b) =>
    Placed read short items[place]? a ∧ rest.Lists (place + 1) items b

theorem lists_iff {place : Nat} {items : List Json} :
    r.Lists place items t ↔ r.InItems place (items.map Draft.ofJson) t := by
  induction r generalizing place with
  | done => rw [Lists, InItems, List.length_map]
  | field name read absent short rest ih => exact and_congr placed_iff ih

/-- **A record is read from an array** exactly if the items give the fields their values, place by
place. -/
theorem read_arr {items : List Json} :
    r.read (.ofJson (.arr items)) = .ok t ↔ r.Lists 0 items t := by
  have h : r.ofItems (.ofList items) = .ok t ↔ _ := ofItems_eq_ok []
  rw [and_iff_right (whole_ofList items), toList_ofList] at h
  exact h.trans lists_iff.symm

end Record

/-- **A list is read from an array** whose items are read as its members, one by one. -/
theorem items_eq_ok {α : Type} {read : Reader α} {j : Json} {as : List α} :
    Reader.items read (.ofJson j) = .ok as ↔
      ∃ items, j = .arr items ∧ List.Forall₂ (fun j a => read (.ofJson j) = .ok a) items as := by
  cases j with
  | arr items =>
    have h : Reader.itemsOf read (.ofList items) = .ok as ↔ _ := itemsOf_eq_ok _
    rw [and_iff_right (whole_ofList items), toList_ofList, List.forall₂_map_left_iff] at h
    simpa [Draft.ofJson, Reader.items] using h
  | _ => simp [Draft.ofJson, Reader.items]

end Storyline.Json
