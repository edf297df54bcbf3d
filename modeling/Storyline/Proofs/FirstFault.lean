import Mathlib.Order.Bounds.Basic
import Storyline.Proofs.Rules

/-!
# The first fault

Beats that do not follow a plan are refused for the first of them that has another key than its
definition. A plan is refused for the first of its definitions that breaks a rule, and there for the
first rule in the order of the checks. Whether beats or a plan are refused at all does not depend on
where one starts to look.

* `isLeast_succ`: the least position in a list is one further than in its tail;
* `firstKeyDeviation_some`, `firstFault_some`: what is found is at the least position;
* **`checkContent_exact`**: the beats that follow a plan, and what is said about those that do not;
* `FaultAt`: the fault of one definition, by the checks in their order;
* **`checkBeats_exact`**: the plans that are accepted, and what is said about those that are not.
-/

namespace Storyline

theorem isLeast_succ {s : Set Nat} {i : Nat} (hzero : 0 ∉ s) (h : IsLeast {j | j + 1 ∈ s} i) :
    IsLeast s (i + 1) := by
  refine ⟨h.1, fun j hj => ?_⟩
  cases j with
  | zero => exact absurd hj hzero
  | succ j => exact Nat.succ_le_succ (h.2 hj)

/-! ## Beats -/

section Beats

variable {index : Nat} {content content' : List Beat} {ds ds' : List BeatDefinition}

/-- The positions at which keys differ from those of a plan. -/
def keyDeviations (content : List Beat) (ds : List BeatDefinition) : Set Nat :=
  {i | (content.map Beat.key)[i]? ≠ (ds.map BeatDefinition.key)[i]?}

/-- **The deviation that is found** is at the least position at which keys differ. -/
theorem firstKeyDeviation_some {deviation : Deviation}
    (h : firstKeyDeviation index content ds = some deviation) :
    ∃ i key planned, IsLeast (keyDeviations content ds) i ∧ (content.map Beat.key)[i]? = some key ∧
      (ds.map BeatDefinition.key)[i]? = some planned ∧
        deviation = .key (index + i) key planned := by
  induction content generalizing index ds with
  | nil => cases h
  | cons beat content ih =>
    cases ds with
    | nil => cases h
    | cons d ds =>
      rw [firstKeyDeviation] at h
      split_ifs at h with hkey
      · obtain ⟨i, key, planned, hleast, hgot, hplanned, rfl⟩ := ih h
        refine ⟨i + 1, key, planned, isLeast_succ ?_ hleast, hgot, hplanned, ?_⟩
        · simp [keyDeviations, hkey]
        · rw [Nat.add_right_comm, Nat.add_assoc]
      · cases h
        refine ⟨0, beat.key, d.key, ⟨?_, fun _ _ => Nat.zero_le _⟩, rfl, rfl, rfl⟩
        simpa [keyDeviations] using hkey

theorem checkContent_count (h : content.length ≠ ds.length) : checkContent content ds =
    .error (.nonconforming s!"expected {ds.length} beats, got {content.length}") := by
  rw [checkContent, checkConformance, if_neg h]
  rfl

theorem checkContent_key (hlength : content.length = ds.length)
    (hkeys : content.map Beat.key ≠ ds.map BeatDefinition.key) :
    ∃ index key planned, IsLeast (keyDeviations content ds) index ∧
      (content.map Beat.key)[index]? = some key ∧
      (ds.map BeatDefinition.key)[index]? = some planned ∧
      checkContent content ds =
        .error (.nonconforming s!"beat {index} has key '{key}', expected '{planned}'") := by
  cases hfirst : firstKeyDeviation 0 content ds with
  | none => exact absurd (firstKeyDeviation_none hlength hfirst) hkeys
  | some deviation =>
    obtain ⟨index, key, planned, hleast, hgot, hplanned, rfl⟩ := firstKeyDeviation_some hfirst
    refine ⟨index, key, planned, hleast, hgot, hplanned, ?_⟩
    rw [checkContent, checkConformance, if_pos hlength, hfirst, Nat.zero_add]
    rfl

theorem checkContent_congr (hcontent : content'.map Beat.key = content.map Beat.key)
    (hds : ds'.map BeatDefinition.key = ds.map BeatDefinition.key) :
    checkContent content' ds' = checkContent content ds := by
  have hcount : content'.length = content.length := by simpa using congrArg List.length hcontent
  have hcount' : ds'.length = ds.length := by simpa using congrArg List.length hds
  by_cases hkeys : content.map Beat.key = ds.map BeatDefinition.key
  · rw [checkContent_of_keys hkeys, checkContent_of_keys (hcontent.trans (hkeys.trans hds.symm))]
  · by_cases hlength : content.length = ds.length
    · have hlength' : content'.length = ds'.length := by rw [hcount, hcount', hlength]
      obtain ⟨i, key, planned, hleast, hgot, hplanned, h⟩ := checkContent_key hlength hkeys
      obtain ⟨i', key', planned', hleast', hgot', hplanned', h'⟩ :=
        checkContent_key hlength' (by rwa [hcontent, hds])
      have hset : keyDeviations content' ds' = keyDeviations content ds := by
        rw [keyDeviations, hcontent, hds, keyDeviations]
      rw [hset] at hleast'
      rw [hleast'.unique hleast, hcontent, hgot] at hgot'
      rw [hleast'.unique hleast, hds, hplanned] at hplanned'
      rw [h, h', hleast'.unique hleast, ← Option.some.inj hgot', ← Option.some.inj hplanned']
    · have hlength' : content'.length ≠ ds'.length := by rwa [hcount, hcount']
      rw [checkContent_count hlength, checkContent_count hlength', hcount, hcount']

end Beats

/-- **Beats follow a plan if they have its keys in its order**, and nothing else of them or of the
plan makes a difference. If there are too few or too many, both numbers are named; otherwise the
least position is named at which the keys differ, with both keys. -/
theorem checkContent_exact (content : List Beat) (ds : List BeatDefinition) :
    let got := content.map Beat.key
    let planned := ds.map BeatDefinition.key
    (checkContent content ds = .ok () ↔ got = planned) ∧
      (content.length ≠ ds.length → checkContent content ds =
        .error (.nonconforming s!"expected {ds.length} beats, got {content.length}")) ∧
      (content.length = ds.length → got ≠ planned → ∃ (index : Nat) (key plannedKey : String),
        IsLeast {i | got[i]? ≠ planned[i]?} index ∧ got[index]? = some key ∧
          planned[index]? = some plannedKey ∧
        checkContent content ds =
          .error (.nonconforming s!"beat {index} has key '{key}', expected '{plannedKey}'")) ∧
      ∀ content' ds', content'.map Beat.key = got → ds'.map BeatDefinition.key = planned →
        checkContent content' ds' = checkContent content ds :=
  ⟨⟨checkContent_ok, checkContent_of_keys⟩, checkContent_count, checkContent_key,
    fun _ _ => checkContent_congr⟩

example : checkContent [⟨"a", "", ""⟩, ⟨"c", "", ""⟩, ⟨"b", "", ""⟩]
    [{ key := "a", name := "" }, { key := "b", name := "" }, { key := "c", name := "" }] =
      .error (.nonconforming "beat 1 has key 'c', expected 'b'") := by decide +kernel

/-! ## Definitions -/

/-- The fault of a definition at a position, where `repeated` tells that its key was there before.
It is found by the first check that fails. -/
inductive FaultAt (index : Nat) (repeated : Prop) (d : BeatDefinition) : DefinitionFault → Prop
  | empty (h : d.trimmedKey = "") : FaultAt index repeated d (.emptyKey index)
  | long (hne : d.trimmedKey ≠ "") (h : 64 < d.trimmedKey.utf8ByteSize) :
      FaultAt index repeated d (.longKey index)
  | repeated (hne : d.trimmedKey ≠ "") (hsize : d.trimmedKey.utf8ByteSize ≤ 64) (h : repeated) :
      FaultAt index repeated d (.repeatedKey d.trimmedKey)
  | bounds (hne : d.trimmedKey ≠ "") (hsize : d.trimmedKey.utf8ByteSize ≤ 64) (hnew : ¬repeated)
      {min max : UInt32} (hmin : d.minScenes = some min) (hmax : d.maxScenes = some max)
      (h : max < min) :
      FaultAt index repeated d (.bounds d.key min max)

section Definitions

variable {index : Nat} {seen : List String} {d : BeatDefinition} {ds ds' : List BeatDefinition}
  {fault : DefinitionFault}

theorem BeatDefinition.boundsFault?_eq_some : d.boundsFault? = some fault ↔
    ∃ min max, d.minScenes = some min ∧ d.maxScenes = some max ∧ max < min ∧
      fault = .bounds d.key min max := by
  unfold boundsFault?
  split
  · next min max hmin hmax => simp [hmin, hmax, eq_comm]
  · next h =>
    refine ⟨nofun, ?_⟩
    rintro ⟨min, max, hmin, hmax, -⟩
    exact absurd hmax (h min max hmin)

theorem BeatDefinition.fault?_eq_some : d.fault? index seen = some fault ↔
    FaultAt index (d.trimmedKey ∈ seen) d fault := by
  rw [fault?_eq]
  constructor
  · intro h
    split_ifs at h with hempty hlong hseen
    · cases h
      exact .empty hempty
    · cases h
      exact .long hempty hlong
    · cases h
      exact .repeated hempty (Nat.le_of_not_lt hlong) hseen
    · obtain ⟨min, max, hmin, hmax, hlt, rfl⟩ := boundsFault?_eq_some.mp h
      exact .bounds hempty (Nat.le_of_not_lt hlong) hseen hmin hmax hlt
  · intro h
    cases h with
    | empty h => rw [if_pos h]
    | long hne h => rw [if_neg hne, if_pos h]
    | repeated hne hsize h => rw [if_neg hne, if_neg (Nat.not_lt_of_le hsize), if_pos h]
    | bounds hne hsize hnew hmin hmax h =>
      rw [if_neg hne, if_neg (Nat.not_lt_of_le hsize), if_neg hnew]
      exact boundsFault?_eq_some.mpr ⟨_, _, hmin, hmax, h, rfl⟩

/-- The positions of the definitions that break a rule by themselves or have a key that was there
before, in the list or among the keys `seen`. -/
def faultyPositions (seen : List String) (ds : List BeatDefinition) : Set Nat :=
  {i | ∃ d, ds[i]? = some d ∧
    (¬d.Sound ∨ d.trimmedKey ∈ seen ++ (ds.take i).map BeatDefinition.trimmedKey)}

theorem zero_mem_faultyPositions :
    0 ∈ faultyPositions seen (d :: ds) ↔ d.fault? index seen ≠ none := by
  simp [faultyPositions, BeatDefinition.fault?_eq_none, imp_iff_not_or]

theorem succ_mem_faultyPositions {i : Nat} :
    i + 1 ∈ faultyPositions seen (d :: ds) ↔ i ∈ faultyPositions (d.trimmedKey :: seen) ds := by
  simp [faultyPositions, or_left_comm]

theorem not_mem_faultyPositions (h : firstFault index seen ds = none) (i : Nat) :
    i ∉ faultyPositions seen ds := by
  obtain ⟨hsound, hdistinct, hnew⟩ := firstFault_eq_none.mp h
  rintro ⟨d, hget, hfaulty⟩
  have hd : d ∈ ds := List.mem_of_getElem? hget
  rcases hfaulty with hunsound | hseen
  · exact hunsound (hsound d hd)
  · rcases List.mem_append.mp hseen with hseen | hearlier
    · exact hnew d hd hseen
    · have hrest : d ∈ ds.drop i := List.mem_iff_getElem?.mpr ⟨0, by simpa using hget⟩
      rw [← List.take_append_drop i ds, List.map_append] at hdistinct
      exact List.disjoint_of_nodup_append hdistinct hearlier (List.mem_map_of_mem hrest)

/-- **The fault that is found** is at the least position of a faulty definition. -/
theorem firstFault_some (h : firstFault index seen ds = some fault) :
    ∃ i d, IsLeast (faultyPositions seen ds) i ∧ ds[i]? = some d ∧
      FaultAt (index + i) (d.trimmedKey ∈ seen ++ (ds.take i).map BeatDefinition.trimmedKey)
        d fault := by
  induction ds generalizing index seen with
  | nil => cases h
  | cons d ds ih =>
    rw [firstFault] at h
    cases hd : d.fault? index seen with
    | some found =>
      rw [hd] at h
      cases h
      have hzero : 0 ∈ faultyPositions seen (d :: ds) :=
        zero_mem_faultyPositions.mpr (hd ▸ Option.some_ne_none fault)
      refine ⟨0, d, ⟨hzero, fun _ _ => Nat.zero_le _⟩, rfl, ?_⟩
      simpa using BeatDefinition.fault?_eq_some.mp hd
    | none =>
      rw [hd] at h
      obtain ⟨i, d', hleast, hget, hfault⟩ := ih h
      have hseen :
        (d'.trimmedKey ∈ seen ++ ((d :: ds).take (i + 1)).map BeatDefinition.trimmedKey) =
          (d'.trimmedKey ∈ d.trimmedKey :: seen ++ (ds.take i).map BeatDefinition.trimmedKey) := by
        simp [or_left_comm]
      have htail : {j | j + 1 ∈ faultyPositions seen (d :: ds)} =
          faultyPositions (d.trimmedKey :: seen) ds :=
        Set.ext fun _ => succ_mem_faultyPositions
      refine ⟨i + 1, d', isLeast_succ ?_ ?_, hget, ?_⟩
      · exact mt zero_mem_faultyPositions.mp (not_not.mpr hd)
      · rw [htail]
        exact hleast
      · rw [hseen, Nat.add_comm i 1, ← Nat.add_assoc]
        exact hfault

theorem KeepRules.perm (h : KeepRules ds) (hds : ds.Perm ds') : KeepRules ds' where
  count := hds.length_eq ▸ h.count
  sound d hd := h.sound d (hds.mem_iff.mpr hd)
  distinct := (hds.map _).nodup_iff.mp h.distinct

theorem checkBeats_eq_ok : checkBeats ds = .ok () ↔ KeepRules ds :=
  mapError_eq_ok.trans checkDefinitions_eq_ok

theorem checkBeats_eq_error (hne : 1 ≤ ds.length) (hle : ds.length ≤ 100) {e : Error} :
    checkBeats ds = .error e ↔ ∃ fault, firstFault 0 [] ds = some fault ∧
      e = .invalid fault.message := by
  have hempty : ¬ds.isEmpty = true := by
    rw [List.isEmpty_iff_length_eq_zero]
    omega
  have hmany : ¬ds.length > maxDefinitions := Nat.not_lt_of_le hle
  rw [checkBeats, checkDefinitions, if_neg hempty, if_neg hmany, mapError_eq_error]
  cases firstFault 0 [] ds <;> simp [eq_comm]

end Definitions

/-- **A plan is accepted if its definitions keep the rules**, whatever their order, and then their
keys are different also with the blanks around them. If there are neither too few nor too many, a
plan is refused for the least position at which a definition breaks a rule by itself or has the key
of one before it, and there for the first check that fails. -/
theorem checkBeats_exact (ds : List BeatDefinition) :
    let earlier (i : Nat) := (ds.take i).map BeatDefinition.trimmedKey
    (checkBeats ds = .ok () ↔ KeepRules ds) ∧
      (∀ ds', ds'.Perm ds → (checkBeats ds' = .ok () ↔ checkBeats ds = .ok ())) ∧
      (checkBeats ds = .ok () → (ds.map BeatDefinition.key).Nodup) ∧
      (1 ≤ ds.length → ds.length ≤ 100 → ∀ e, checkBeats ds = .error e ↔ ∃ i d fault,
        IsLeast {i | ∃ d, ds[i]? = some d ∧ (¬d.Sound ∨ d.trimmedKey ∈ earlier i)} i ∧
          ds[i]? = some d ∧
          FaultAt i (d.trimmedKey ∈ earlier i) d fault ∧ e = .invalid fault.message) := by
  intro earlier
  refine ⟨checkBeats_eq_ok, fun ds' hds => ?_, fun h => ?_, fun hne hle e => ?_⟩
  · rw [checkBeats_eq_ok, checkBeats_eq_ok]
    exact ⟨fun h => h.perm hds, fun h => h.perm hds.symm⟩
  · exact (checkDefinitions_ok (mapError_eq_ok.mp h)).2
  · rw [checkBeats_eq_error hne hle]
    constructor
    · rintro ⟨fault, hfirst, rfl⟩
      obtain ⟨i, d, hleast, hget, hfault⟩ := firstFault_some hfirst
      rw [Nat.zero_add] at hfault
      exact ⟨i, d, fault, hleast, hget, hfault, rfl⟩
    · rintro ⟨i, d, fault, hleast, hget, hfault, rfl⟩
      refine ⟨fault, ?_, rfl⟩
      cases hfirst : firstFault 0 [] ds with
      | none => exact absurd hleast.1 (not_mem_faultyPositions hfirst i)
      | some found =>
        -- there is only one least position, and one fault at it
        obtain ⟨i', d', hleast', hget', hfault'⟩ := firstFault_some hfirst
        obtain rfl : i' = i := hleast'.unique hleast
        obtain rfl : d' = d := Option.some.inj (hget'.symm.trans hget)
        rw [Nat.zero_add] at hfault'
        exact (BeatDefinition.fault?_eq_some.mpr hfault').symm.trans
          (BeatDefinition.fault?_eq_some.mpr hfault)

example : checkBeats [{ key := "setup", name := "" },
    { key := " setup ", name := "", minScenes := some 3, maxScenes := some 1 },
    { key := "", name := "" }] =
      .error (.invalid "beat key 'setup' is defined more than once") := by decide +kernel

end Storyline
