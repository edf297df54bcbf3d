import Mathlib.Data.List.Nodup
import Storyline.Service.Handlers

/-!
# What the rules guarantee

* lengths and slugs: `checkLengths_ok`, `chosenSlug_ok`, `caller_ok`;
* plans: `KeepRules`, what the definitions of a plan keep to, with `checkDefinitions_eq_ok`;
* the beats that follow them: `checkContent_ok`, `checkContent_of_keys`;
* `Loglines.accept_ok`, `StoryPlans.accept_ok`, `StoryPlans.checkRevision_ok`: what has been
  accepted.
-/

namespace Storyline

theorem mapError_eq_ok {φ ψ α : Type} {f : φ → ψ} {x : Except φ α} {a : α} :
    x.mapError f = .ok a ↔ x = .ok a := by
  cases x <;> simp [Except.mapError]

theorem mapError_eq_error {φ ψ α : Type} {f : φ → ψ} {x : Except φ α} {e : ψ} :
    x.mapError f = .error e ↔ ∃ e', x = .error e' ∧ f e' = e := by
  cases x <;> simp [Except.mapError]

theorem bind_eq_ok {φ α β : Type} {x : Except φ α} {f : α → Except φ β} {b : β} :
    x >>= f = .ok b ↔ ∃ a, x = .ok a ∧ f a = .ok b := by
  cases x <;> simp [bind, Except.bind]

theorem bind_eq_error {φ α β : Type} {x : Except φ α} {f : α → Except φ β} {e : φ} :
    x >>= f = .error e ↔ x = .error e ∨ ∃ a, x = .ok a ∧ f a = .error e := by
  cases x <;> simp [bind, Except.bind]

theorem ok_bind {φ α β : Type} (a : α) (f : α → Except φ β) : .ok a >>= f = f a := rfl

/-! ## Lengths, slugs and callers -/

theorem checkLengths_ok {texts : List Measured} (h : checkLengths texts = .ok ()) {m : Measured}
    (hm : m ∈ texts) : m.fits = true := by
  unfold checkLengths at h
  split at h
  · next hnil =>
    have := List.filter_eq_nil_iff.mp hnil m hm
    simpa using this
  · cases h

theorem checkedSlug_ok {slug chosen : String} (h : checkedSlug slug = .ok chosen) :
    chosen = slug ∧ Slug.check chosen = .ok () := by
  unfold checkedSlug at h
  split at h
  · next hc =>
    cases h
    exact ⟨rfl, hc⟩
  · cases h

theorem chosenSlug_ok {slug : Option String} {name chosen : String}
    (h : chosenSlug slug name = .ok chosen) :
    chosen = slug.getD (Slug.ofTitle name) ∧ Slug.check chosen = .ok () := by
  unfold chosenSlug at h
  split at h
  · exact checkedSlug_ok h
  · split at h
    · cases h
    · exact checkedSlug_ok h

theorem callerOf_ok {r : Http.Request} {user : Int} (h : callerOf r = .ok user) : 0 < user := by
  have h := mapError_eq_ok.mp h
  unfold caller at h
  split at h
  · cases h
  · split at h
    · split at h
      · next hpos =>
        cases h
        exact hpos
      · cases h
    · cases h

/-! ## Plans and sheets -/

/-- The key of a definition without the blanks around it. -/
def BeatDefinition.trimmedKey (d : BeatDefinition) : String := Text.trimmed d.key

/-- The definition keeps the rules by itself. -/
structure BeatDefinition.Sound (d : BeatDefinition) : Prop where
  key : d.trimmedKey ≠ ""
  size : d.trimmedKey.utf8ByteSize ≤ 64
  bounds : ∀ min max, d.minScenes = some min → d.maxScenes = some max → min ≤ max

/-- The definitions of a plan keep the rules: each by itself, and no two with the same key. -/
structure KeepRules (ds : List BeatDefinition) : Prop where
  count : 1 ≤ ds.length ∧ ds.length ≤ 100
  sound : ∀ d ∈ ds, d.Sound
  distinct : (ds.map BeatDefinition.trimmedKey).Nodup

namespace BeatDefinition

variable {index : Nat} {seen : List String} {d : BeatDefinition}

theorem boundsFault?_eq_none : d.boundsFault? = none ↔
    ∀ min max, d.minScenes = some min → d.maxScenes = some max → min ≤ max := by
  unfold boundsFault?
  split
  · next min max hmin hmax => simp [hmin, hmax]
  · next h => exact ⟨fun _ min max hmin hmax => absurd hmax (h min max hmin), fun _ => rfl⟩

theorem fault?_eq : d.fault? index seen =
    if d.trimmedKey = "" then some (.emptyKey index)
    else if 64 < d.trimmedKey.utf8ByteSize then some (.longKey index)
    else if d.trimmedKey ∈ seen then some (.repeatedKey d.trimmedKey)
    else d.boundsFault? := by
  simp only [fault?, trimmedKey, maxKeyBytes, String.isEmpty_iff, List.contains_eq_mem,
    decide_eq_true_eq, gt_iff_lt]
  congr

theorem fault?_eq_none : d.fault? index seen = none ↔ d.Sound ∧ d.trimmedKey ∉ seen := by
  rw [fault?_eq]
  split_ifs with hempty hlong hseen
  · exact ⟨nofun, fun h => absurd hempty h.1.key⟩
  · exact ⟨nofun, fun h => absurd h.1.size (Nat.not_le_of_lt hlong)⟩
  · exact ⟨nofun, fun h => absurd hseen h.2⟩
  · rw [boundsFault?_eq_none]
    exact ⟨fun h => ⟨⟨hempty, Nat.le_of_not_lt hlong, h⟩, hseen⟩, fun h => h.1.bounds⟩

end BeatDefinition

theorem firstFault_eq_none {index : Nat} {seen : List String} {ds : List BeatDefinition} :
    firstFault index seen ds = none ↔ (∀ d ∈ ds, d.Sound) ∧
      (ds.map BeatDefinition.trimmedKey).Nodup ∧
      ∀ d ∈ ds, d.trimmedKey ∉ seen := by
  induction ds generalizing index seen with
  | nil => simp [firstFault]
  | cons d ds ih =>
    have hhead : d.fault? index seen = none ↔ d.Sound ∧ d.trimmedKey ∉ seen :=
      BeatDefinition.fault?_eq_none
    rw [firstFault]
    cases hd : d.fault? index seen with
    | some fault =>
      refine ⟨nofun, fun h => ?_⟩
      rw [hhead.mpr ⟨h.1 d List.mem_cons_self, h.2.2 d List.mem_cons_self⟩] at hd
      cases hd
    | none =>
      obtain ⟨hsound, hnew⟩ := hhead.mp hd
      change firstFault (index + 1) (d.trimmedKey :: seen) ds = none ↔ _
      rw [ih]
      constructor
      · rintro ⟨hsounds, hdistinct, hseen⟩
        refine ⟨List.forall_mem_cons.mpr ⟨hsound, hsounds⟩,
          List.nodup_cons.mpr ⟨fun hmem => ?_, hdistinct⟩, List.forall_mem_cons.mpr ⟨hnew,
            fun d' hd' hmem => hseen d' hd' (List.mem_cons_of_mem _ hmem)⟩⟩
        obtain ⟨d', hd', heq⟩ := List.mem_map.mp hmem
        exact hseen d' hd' (heq ▸ List.mem_cons_self)
      · rintro ⟨hsounds, hdistinct, hseen⟩
        obtain ⟨hfirst, hdistinct⟩ := List.nodup_cons.mp hdistinct
        refine ⟨(List.forall_mem_cons.mp hsounds).2, hdistinct, fun d' hd' hmem => ?_⟩
        rcases List.mem_cons.mp hmem with heq | hmem
        · exact hfirst (List.mem_map.mpr ⟨d', hd', heq⟩)
        · exact hseen d' (List.mem_cons_of_mem _ hd') hmem

/-- **A plan is accepted if its definitions keep the rules.** -/
theorem checkDefinitions_eq_ok {ds : List BeatDefinition} :
    checkDefinitions ds = .ok () ↔ KeepRules ds := by
  have hlength : ds.isEmpty = true ↔ ¬1 ≤ ds.length := by simp
  unfold checkDefinitions
  split_ifs with hempty hmany
  · exact ⟨nofun, fun h => absurd h.count.1 (hlength.mp hempty)⟩
  · exact ⟨nofun, fun h => absurd h.count.2 (Nat.not_le_of_lt hmany)⟩
  · have hcount : 1 ≤ ds.length ∧ ds.length ≤ 100 :=
      ⟨not_not.mp (mt hlength.mpr hempty), Nat.le_of_not_lt hmany⟩
    cases hfault : firstFault 0 [] ds with
    | none =>
      obtain ⟨hsound, hdistinct, -⟩ := firstFault_eq_none.mp hfault
      exact ⟨fun _ => ⟨hcount, hsound, hdistinct⟩, fun _ => rfl⟩
    | some fault =>
      refine ⟨nofun, fun h => ?_⟩
      rw [firstFault_eq_none.mpr ⟨h.sound, h.distinct, fun d _ => List.not_mem_nil⟩] at hfault
      cases hfault

theorem checkDefinitions_ok {ds : List BeatDefinition} (h : checkDefinitions ds = .ok ()) :
    ds ≠ [] ∧ (ds.map BeatDefinition.key).Nodup := by
  have hrules : KeepRules ds := checkDefinitions_eq_ok.mp h
  have hdistinct := hrules.distinct
  rw [show BeatDefinition.trimmedKey = Text.trimmed ∘ BeatDefinition.key from rfl,
    ← List.map_map] at hdistinct
  exact ⟨List.ne_nil_of_length_pos hrules.count.1, hdistinct.of_map Text.trimmed⟩

theorem firstKeyDeviation_none {index : Nat} {content : List Beat} {ds : List BeatDefinition}
    (hlength : content.length = ds.length) (h : firstKeyDeviation index content ds = none) :
    content.map Beat.key = ds.map BeatDefinition.key := by
  induction content generalizing index ds with
  | nil =>
    rw [List.length_nil, eq_comm, List.length_eq_zero_iff] at hlength
    rw [hlength]
    rfl
  | cons beat content ih =>
    cases ds with
    | nil => cases hlength
    | cons d ds =>
      simp only [firstKeyDeviation] at h
      split at h
      · next hkey => rw [List.map_cons, List.map_cons, hkey, ih (Nat.succ.inj hlength) h]
      · cases h

theorem checkContent_ok {content : List Beat} {ds : List BeatDefinition}
    (h : checkContent content ds = .ok ()) :
    content.map Beat.key = ds.map BeatDefinition.key := by
  have h := mapError_eq_ok.mp h
  unfold checkConformance at h
  split at h
  · next hlength =>
    split at h
    · next hnone => exact firstKeyDeviation_none hlength hnone
    · cases h
  · cases h

theorem firstKeyDeviation_of_keys {index : Nat} {content : List Beat} {ds : List BeatDefinition}
    (h : content.map Beat.key = ds.map BeatDefinition.key) :
    firstKeyDeviation index content ds = none := by
  induction content generalizing index ds with
  | nil => rfl
  | cons beat content ih =>
    cases ds with
    | nil => rfl
    | cons d ds =>
      obtain ⟨hkey, hkeys⟩ := List.cons.inj h
      rw [firstKeyDeviation, if_pos hkey, ih hkeys]

theorem checkContent_of_keys {content : List Beat} {ds : List BeatDefinition}
    (h : content.map Beat.key = ds.map BeatDefinition.key) : checkContent content ds = .ok () := by
  have hlength : content.length = ds.length := by simpa using congrArg List.length h
  rw [checkContent, checkConformance, if_pos hlength, firstKeyDeviation_of_keys h]
  rfl

/-! ## Accepted input -/

theorem Loglines.accept_ok {user : Int} {input : LoglineInput} {d : NewLogline}
    (h : accept user input = .ok d) :
    checkLengths [.content input.content, .name input.name] = .ok () ∧
      ∃ slug, chosenSlug input.slug input.name = .ok slug ∧
        d = ⟨user, slug, input.name, input.content⟩ := by
  obtain ⟨_, hlengths, h⟩ := bind_eq_ok.mp h
  obtain ⟨slug, hslug, h⟩ := bind_eq_ok.mp h
  exact ⟨hlengths, slug, hslug, (Except.ok.inj h).symm⟩

theorem StoryPlans.accept_ok {input : StoryPlanInput} {d : NewStoryPlan}
    (h : accept input = .ok d) :
    checkRevision ⟨input.name, input.description, input.beats⟩ = .ok () ∧
      ∃ slug, chosenSlug input.slug input.name = .ok slug ∧
        d = ⟨slug, input.name, input.description, input.beats⟩ := by
  obtain ⟨_, hlengths, h⟩ := bind_eq_ok.mp h
  obtain ⟨_, hbeats, h⟩ := bind_eq_ok.mp h
  obtain ⟨slug, hslug, h⟩ := bind_eq_ok.mp h
  exact ⟨bind_eq_ok.mpr ⟨_, hlengths, hbeats⟩, slug, hslug, (Except.ok.inj h).symm⟩

theorem StoryPlans.checkRevision_ok {d : StoryPlanRevision} (h : checkRevision d = .ok ()) :
    checkLengths (Measured.description d.description ++ [.name d.name]) = .ok () ∧
      checkDefinitions d.beats = .ok () := by
  obtain ⟨_, hlengths, h⟩ := bind_eq_ok.mp h
  exact ⟨hlengths, mapError_eq_ok.mp h⟩

end Storyline
