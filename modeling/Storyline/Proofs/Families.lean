import Mathlib.Data.List.Induction
import Mathlib.Data.Nat.Digits.Defs
import Storyline.Creation.Create
import Storyline.Proofs.Ladder

/-!
# Families of slugs

The family of a base is the base itself with its variants. The number at the end of a slug is cut
off at one place only, so that variants of different bases are different slugs; and how far a family
can grow depends on the length of its base.

* `Slug.dashed_inj`: a variant has one base and one number;
* `Slug.inFamily`, `Slug.family`: the slugs of a family, with `Slug.not_inFamily_renamed` for what
  is stored under other bases;
* `Slug.Fits`, `Slug.check_dashed_iff`, `Slug.check_rung`: the numbers that a base has room for.
-/

namespace Storyline

namespace Slug

variable {base base' slug : String} {slugs : List String} {ds ds' : List Char} {n : Nat}

/-! ## One base -/

theorem takeWhile_isDigit_dashed (hd : ∀ c ∈ ds, c.isDigit) :
    (dashed base ds).toList.reverse.takeWhile Char.isDigit = ds.reverse := by
  have hrev : ∀ c ∈ ds.reverse, c.isDigit = true := fun c hc => hd c (List.mem_reverse.mp hc)
  rw [dashed, String.toList_ofList, List.reverse_append, List.reverse_cons, List.append_assoc,
    List.takeWhile_append_of_pos hrev, List.singleton_append,
    List.takeWhile_cons_of_neg (by decide),
    List.append_nil]

/-- **A variant has one base and one number**: the digits at its end and what comes before them. -/
theorem dashed_inj (hd : ∀ c ∈ ds, c.isDigit) (hd' : ∀ c ∈ ds', c.isDigit)
    (h : dashed base ds = dashed base' ds') : base = base' ∧ ds = ds' := by
  have hds : ds = ds' := by
    have hreverse := congrArg (fun slug : String => slug.toList.reverse.takeWhile Char.isDigit) h
    simp only [takeWhile_isDigit_dashed hd, takeWhile_isDigit_dashed hd'] at hreverse
    exact List.reverse_injective hreverse
  subst hds
  exact ⟨String.toList_injective (List.append_cancel_right (String.ofList_injective h)), rfl⟩

/-! ## Members -/

/-- A slug is the base or one of its variants. -/
def inFamily (base slug : String) : Bool := slug == base || (suffix? base slug).isSome

/-- The members of a family among slugs, in the order of the slugs. -/
def family (base : String) (slugs : List String) : List String := slugs.filter (inFamily base)

theorem inFamily_iff :
    inFamily base slug = true ↔ slug = base ∨ ∃ ds, suffix? base slug = some ds := by
  rw [inFamily, Bool.or_eq_true, beq_iff_eq, Option.isSome_iff_exists]

theorem inFamily_eq_false :
    inFamily base slug = false ↔ slug ≠ base ∧ suffix? base slug = none := by
  rw [inFamily, Bool.or_eq_false_iff, beq_eq_false_iff_ne, Option.isSome_eq_false_iff,
    Option.isNone_iff_eq_none]

theorem inFamily_rung (base : String) (k : Nat) : inFamily base (rung base k) = true := by
  rw [inFamily_iff]
  cases k with
  | zero => exact .inl rfl
  | succ k => exact .inr ⟨_, suffix?_write base (k + 1)⟩

/-- **What is stored under another base** is not in the family, unless one of the two bases is a
variant of the other. -/
theorem not_inFamily_renamed (hslug : inFamily base slug = false) (hbase : suffix? slug base = none)
    {stored : String} (h : stored = slug ∨ ∃ n, stored = variant slug n) :
    inFamily base stored = false := by
  rcases h with rfl | ⟨n, rfl⟩
  · exact hslug
  · rw [variant_eq, inFamily_eq_false, Option.eq_none_iff_forall_ne_some]
    constructor
    · intro h
      have hsuffix := suffix?_write slug n.toNat
      rw [h, hbase] at hsuffix
      cases hsuffix
    · intro ds hds
      obtain ⟨hstored, -, hd⟩ := suffix?_eq_some.mp hds
      have heq : slug = base := (dashed_inj (fun _ => Numeral.isDigit_of_mem_write) hd hstored).1
      exact (inFamily_eq_false.mp hslug).1 heq

theorem family_append (base : String) (slugs added : List String) :
    family base (slugs ++ added) = family base slugs ++ family base added := List.filter_append ..

theorem base_mem_family : base ∈ family base slugs ↔ base ∈ slugs := by
  have hself : inFamily base base = true := inFamily_rung base 0
  rw [family, List.mem_filter, and_iff_left hself]

theorem numbers_family (base : String) (slugs : List String) :
    numbers base (family base slugs) = numbers base slugs := by
  rw [numbers, family, List.filterMap_filter, numbers]
  congr 2
  funext slug
  cases hd : suffix? base slug with
  | none => split <;> rfl
  | some ds => rw [if_pos (inFamily_iff.mpr (.inr ⟨ds, hd⟩))]

/-! ## Ladders -/

theorem topNumber_ladder (base : String) (n : Nat) : topNumber base (ladder base n) = n - 1 := by
  induction n with
  | zero => rfl
  | succ n ih =>
    rw [ladder_succ, topNumber_append_rung, ih]
    omega

theorem pairwise_numbers_ladder (base : String) (n : Nat) :
    (numbers base (ladder base n)).Pairwise (· ≤ ·) := by
  induction n with
  | zero => exact .nil
  | succ n ih =>
    rw [ladder_succ]
    exact pairwise_numbers_append_rung ih (.inr (by rw [topNumber_ladder]; exact Nat.sub_le n 1))

/-! ## Room -/

/-- A number fits behind the base and a hyphen, as far as the length of a slug goes. -/
def Fits (base : String) (n : Nat) : Prop :=
  base.utf8ByteSize + 1 + (Numeral.write n).length ≤ maxBytes

instance (base : String) (n : Nat) : Decidable (Fits base n) := Nat.decLe _ _

theorem length_write_mono {m n : Nat} (h : m ≤ n) :
    (Numeral.write m).length ≤ (Numeral.write n).length := by
  have hpos : 0 < (Numeral.write n).length := List.length_pos_of_ne_nil (Numeral.write_ne_nil n)
  have hlt : n < 10 ^ (Numeral.write n).length :=
    (Nat.length_toDigits_le_iff (by decide) hpos).mp (Nat.le_refl _)
  exact (Nat.length_toDigits_le_iff (by decide) hpos).mpr (Nat.lt_of_le_of_lt h hlt)

theorem Fits.mono {m : Nat} (h : Fits base n) (hm : m ≤ n) : Fits base m := by
  have hlength := length_write_mono hm
  unfold Fits at *
  omega

theorem utf8Size_digit {c : Char} (hc : c.isDigit = true) : c.utf8Size = 1 := by
  simp only [Char.isDigit, Bool.and_eq_true, decide_eq_true_eq] at hc
  have hle : c.val ≤ 0x7F := UInt32.le_trans hc.2 (by decide)
  exact if_pos hle

theorem utf8ByteSize_of_utf8Size {cs : List Char} (h : ∀ c ∈ cs, c.utf8Size = 1) :
    (String.ofList cs).utf8ByteSize = cs.length := by
  induction cs with
  | nil => rfl
  | cons c cs ih =>
    rw [← List.singleton_append, String.ofList_append, String.utf8ByteSize_append,
      ih fun c hc => h c (List.mem_cons_of_mem _ hc), ← String.singleton_eq_ofList,
      String.utf8ByteSize_singleton, h c List.mem_cons_self, List.length_append,
      List.length_singleton]

theorem utf8ByteSize_digits (hd : ∀ c ∈ ds, c.isDigit) :
    (String.ofList ds).utf8ByteSize = ds.length :=
  utf8ByteSize_of_utf8Size fun c hc => utf8Size_digit (hd c hc)

theorem utf8ByteSize_dashed (base : String) (hd : ∀ c ∈ ds, c.isDigit) :
    (dashed base ds).utf8ByteSize = base.utf8ByteSize + 1 + ds.length := by
  have hhyphen : (String.ofList ['-']).utf8ByteSize = 1 := by decide
  rw [dashed, ← List.singleton_append, String.ofList_append, String.ofList_append,
    String.utf8ByteSize_append, String.utf8ByteSize_append, String.ofList_toList,
    utf8ByteSize_digits hd, hhyphen, Nat.add_assoc]

/-- **A base with digits is a slug** if the base is one and the digits have room behind it. -/
theorem check_dashed_iff (hne : ds ≠ []) (hd : ∀ c ∈ ds, c.isDigit) :
    check (dashed base ds) = .ok () ↔
      check base = .ok () ∧ base.utf8ByteSize + 1 + ds.length ≤ maxBytes := by
  rw [check_eq_ok, check_eq_ok, utf8ByteSize_dashed base hd, dashed, String.toList_ofList,
    joinsWords_append, joinsWords_digits (.inr hne) hd, Bool.and_true]
  constructor
  · rintro ⟨hwords, hsize⟩
    exact ⟨⟨hwords, by omega⟩, hsize⟩
  · rintro ⟨⟨hwords, -⟩, hsize⟩
    exact ⟨hwords, hsize⟩

/-- **The variants of a slug are slugs as long as their numbers fit.** -/
theorem check_rung (hbase : check base = .ok ()) (hn : 0 < n) :
    check (rung base n) = .ok () ↔ Fits base n := by
  rw [rung_of_pos base hn, check_dashed_iff (Numeral.write_ne_nil n) fun _ =>
    Numeral.isDigit_of_mem_write, and_iff_right hbase, Fits]

end Slug

/-! ## Writing and reading variants

A number has one written form without superfluous zeros, and that is how variants are written.
Digits with further zeros at their head are read as well, but what is written back is another
variant.

* `Numeral.Canonical`: digits as a number is written, with `Numeral.canonical_write` and
  `Numeral.write_ofDigitChars`;
* `Slug.variant_eq_dashed_iff`: the variants that are written as they stand;
* **`variants_readBack`**: what is written is read back, what is read is written back if it is
  canonical, and a variant has one base and one number.
-/

namespace Numeral

variable {n : Nat} {c : Char} {cs ds : List Char}

/-- Digits with no superfluous zero at their head. -/
def Canonical (ds : List Char) : Prop := ∀ rest, ds = '0' :: rest → rest = []

theorem head?_write (hn : 0 < n) : (write n).head? ≠ some '0' := by
  -- on the number without its last digit
  induction n using Nat.strongRecOn with
  | ind n ih =>
    rw [write, Nat.toDigits_eq_if (by decide)]
    split_ifs with hlt
    · simpa using Nat.pos_iff_ne_zero.mp hn
    · have hhead := ih (n / 10) (by omega) (by omega)
      rw [List.head?_append_of_ne_nil _ Nat.toDigits_ne_nil]
      exact hhead

theorem canonical_write (n : Nat) : Canonical (write n) := by
  intro rest hrest
  rcases Nat.eq_zero_or_pos n with rfl | hn
  · exact (List.tail_eq_of_cons_eq hrest).symm
  · have hhead := head?_write hn
    rw [hrest] at hhead
    exact absurd rfl hhead

theorem exists_digitChar (hc : c.isDigit = true) : ∃ k < 10, k.digitChar = c := by
  obtain ⟨hlow, hhigh⟩ := Char.isDigit_iff_toNat.mp hc
  have hlt : c.toNat - 48 < 10 := by
    simp at hlow hhigh
    omega
  refine ⟨c.toNat - 48, hlt, Char.toNat_inj.mp ?_⟩
  rw [Nat.toNat_digitChar_of_lt_ten hlt]
  simp at hlow
  omega

theorem ofDigitChars_pos (hc : c.isDigit = true) (hne : c ≠ '0') :
    0 < Nat.ofDigitChars 10 (c :: cs) 0 := by
  obtain ⟨k, hk, rfl⟩ := exists_digitChar hc
  have hpos : k ≠ 0 := mt Nat.digitChar_eq_zero.mpr hne
  have hle := le_ofDigitChars (10 * 0 + k) cs
  rw [Nat.ofDigitChars_cons_digitChar_of_lt_ten hk]
  omega

/-- **Canonical digits are written back as they were read.** -/
theorem write_ofDigitChars (hne : ds ≠ []) (hd : ∀ c ∈ ds, c.isDigit) (h : Canonical ds) :
    write (Nat.ofDigitChars 10 ds 0) = ds := by
  induction ds using List.reverseRecOn with
  | nil => exact absurd rfl hne
  | append_singleton cs c ih =>
    obtain ⟨k, hk, rfl⟩ := exists_digitChar (hd c (by simp))
    have hlast : Nat.ofDigitChars 10 (cs ++ [k.digitChar]) 0 =
        10 * Nat.ofDigitChars 10 cs 0 + k := by
      rw [Nat.ofDigitChars_append, Nat.ofDigitChars_cons_digitChar_of_lt_ten hk,
        Nat.ofDigitChars_nil]
    rw [hlast]
    cases cs with
    | nil =>
      rw [Nat.ofDigitChars_nil, Nat.mul_zero, Nat.zero_add]
      exact Nat.toDigits_of_lt_base hk
    | cons c' cs =>
      have hc' : c' ≠ '0' := by
        rintro rfl
        simpa using h _ rfl
      have hpos : 0 < Nat.ofDigitChars 10 (c' :: cs) 0 := ofDigitChars_pos (hd c' (by simp)) hc'
      have hinit : write (Nat.ofDigitChars 10 (c' :: cs) 0) = c' :: cs := by
        refine ih (List.cons_ne_nil _ _) (fun c hc => hd c (List.mem_append_left _ hc))
          fun rest hrest => ?_
        exact absurd (List.head_eq_of_cons_eq hrest) hc'
      rw [write, ← Nat.toDigits_append_toDigits (by decide) hpos hk, ← write, hinit,
        Nat.toDigits_of_lt_base hk]

end Numeral

namespace Slug

variable {base : String} {ds : List Char} {n : UInt32}

theorem variant_eq_dashed_iff (hne : ds ≠ []) (hd : ∀ c ∈ ds, c.isDigit)
    (hn : n.toNat = suffixValue ds) :
    variant base n = dashed base ds ↔ Numeral.Canonical ds := by
  rw [variant_eq, hn]
  constructor
  · intro h
    rw [← dashed_injective base h]
    exact Numeral.canonical_write _
  · intro h
    rw [suffixValue, Numeral.write_ofDigitChars hne hd h]

end Slug

open Slug

theorem storedNumber_dashed {base : String} {ds : List Char} (hne : ds ≠ [])
    (hd : ∀ c ∈ ds, c.isDigit) :
    storedNumber base (dashed base ds) = if suffixValue ds ≤ maxNumber
      then .ok (UInt32.ofNat (suffixValue ds))
      else .error (.unreadableSuffix (dashed base ds) .tooLarge) := by
  rw [storedNumber, number_dashed hne hd]
  split <;> rfl

theorem storedNumber_dashed_eq_ok {base : String} {ds : List Char} (hne : ds ≠ [])
    (hd : ∀ c ∈ ds, c.isDigit) {n : UInt32} :
    storedNumber base (dashed base ds) = .ok n ↔ n.toNat = suffixValue ds := by
  rw [storedNumber_dashed hne hd]
  split_ifs with hle
  · rw [Except.ok.injEq, ← UInt32.toNat_inj, toNat_ofNat_of_le hle, eq_comm]
  · have hlt := n.toNat_lt
    refine ⟨nofun, fun h => absurd ?_ hle⟩
    rw [← h, maxNumber]
    exact Nat.le_pred_of_lt hlt

/-- **Writing and reading variants are inverse to each other**, as far as both go. The number of a
variant is read back. Of a base with digits, the value of the digits is read if it has 32 bits; what
is written for it is the same slug if the digits have no superfluous zero. And no text is a base
with digits in two ways, so that the variants of different bases are different, also where a base
ends in a number itself. -/
theorem variants_readBack (base : String) :
    (∀ n, storedNumber base (variant base n) = .ok n) ∧
      (∀ ds, ds ≠ [] → (∀ c ∈ ds, c.isDigit) →
        (∀ n, storedNumber base (dashed base ds) = .ok n ↔ n.toNat = suffixValue ds) ∧
        (4294967295 < suffixValue ds →
          ∃ fault, storedNumber base (dashed base ds) =
            .error (.unreadableSuffix (dashed base ds) fault)) ∧
        ∀ n, storedNumber base (dashed base ds) = .ok n →
          (variant base n = dashed base ds ↔ Numeral.Canonical ds)) ∧
      (∀ base' ds ds', (∀ c ∈ ds, c.isDigit) → (∀ c ∈ ds', c.isDigit) →
        dashed base ds = dashed base' ds' → base = base' ∧ ds = ds') ∧
      ∀ base' n n', variant base n = variant base' n' → base = base' ∧ n = n' := by
  refine ⟨fun n => ?_, fun ds hne hd =>
    ⟨fun n => storedNumber_dashed_eq_ok hne hd, fun hlarge => ?_, fun n hn => ?_⟩,
    fun base' ds ds' => dashed_inj, fun base' n n' h => ?_⟩
  · rw [variant_eq, storedNumber_dashed_eq_ok (Numeral.write_ne_nil _) fun _ =>
      Numeral.isDigit_of_mem_write, suffixValue_write]
  · have hmax : ¬suffixValue ds ≤ maxNumber := Nat.not_le_of_lt hlarge
    rw [storedNumber_dashed hne hd, if_neg hmax]
    exact ⟨_, rfl⟩
  · exact variant_eq_dashed_iff hne hd ((storedNumber_dashed_eq_ok hne hd).mp hn)
  · have hdigits (m : UInt32) : ∀ c ∈ Numeral.write m.toNat, c.isDigit :=
      fun _ => Numeral.isDigit_of_mem_write
    obtain ⟨rfl, hwrite⟩ := dashed_inj (hdigits n) (hdigits n') h
    have hnumber := congrArg suffixValue hwrite
    rw [suffixValue_write, suffixValue_write] at hnumber
    exact ⟨rfl, UInt32.toNat_inj.mp hnumber⟩

example : storedNumber "act-1" "act-1-007" = .ok 7 ∧ variant "act-1" 7 ≠ "act-1-007" := by
  decide +kernel

end Storyline
