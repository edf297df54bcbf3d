import Mathlib.Data.List.Basic
import Mathlib.Data.List.TakeWhile
import Storyline.Slug
import Storyline.Text

/-!
# Reading variants back

* `Numeral.readFrom_eq`, `Numeral.read_digits`: digits are read as the number they stand for, as far
  as it fits;
* `Slug.dashed`: a base with a hyphen and further characters; `Slug.suffix?_eq_some`: the slugs that
  count as variants of a base;
* `Slug.number_dashed`: the number of a stored variant;
* `Slug.check_eq_ok`: the form and the size of slugs;
* `Slug.joinsWords_append`, `Slug.check_dashed_error`: the variants of a slug are slugs, unless they
  are too long.
-/

namespace Storyline

namespace Numeral

theorem le_ofDigitChars (n : Nat) (cs : List Char) : n ≤ Nat.ofDigitChars 10 cs n := by
  induction cs generalizing n with
  | nil => exact Nat.le_refl n
  | cons c cs ih =>
    rw [Nat.ofDigitChars_cons]
    have := ih (10 * n + (c.toNat - '0'.toNat))
    omega

theorem readFrom_eq {max n : Nat} {cs : List Char} (hn : n ≤ max) (hd : ∀ c ∈ cs, c.isDigit) :
    readFrom max n cs = if Nat.ofDigitChars 10 cs n ≤ max then .ok (Nat.ofDigitChars 10 cs n)
      else .error .tooLarge := by
  induction cs generalizing n with
  | nil => rw [Nat.ofDigitChars_nil, if_pos hn, readFrom]
  | cons c cs ih =>
    have hc : c.isDigit = true := hd c List.mem_cons_self
    have hcs : ∀ c ∈ cs, c.isDigit := fun c hc => hd c (List.mem_cons_of_mem _ hc)
    rw [readFrom, if_pos hc, Nat.ofDigitChars_cons, ← digitValue]
    by_cases hle : 10 * n + digitValue c ≤ max
    · rw [if_pos hle, ih hle hcs]
    · have := le_ofDigitChars (10 * n + digitValue c) cs
      rw [if_neg hle, if_neg (by omega)]

/-- **Digits are read as the number that they stand for**, unless it exceeds the bound. -/
theorem read_digits {max : Nat} {cs : List Char} (hne : cs ≠ []) (hd : ∀ c ∈ cs, c.isDigit) :
    read max cs = if Nat.ofDigitChars 10 cs 0 ≤ max then .ok (Nat.ofDigitChars 10 cs 0)
      else .error .tooLarge := by
  obtain ⟨c, cs, rfl⟩ := List.exists_cons_of_ne_nil hne
  have hc : c ≠ '+' := by
    rintro rfl
    exact absurd (hd '+' List.mem_cons_self) (by decide)
  rw [← readFrom_eq (Nat.zero_le max) hd, read]
  · rfl
  · exact fun h => hc h

theorem write_ne_nil (n : Nat) : write n ≠ [] := Nat.toDigits_ne_nil

theorem isDigit_of_mem_write {n : Nat} {c : Char} (hc : c ∈ write n) : c.isDigit = true :=
  Nat.isDigit_of_mem_toDigits (by decide) (by decide) hc

end Numeral

namespace Slug

/-- A base with a hyphen and further characters. -/
def dashed (base : String) (ds : List Char) : String := String.ofList (base.toList ++ '-' :: ds)

theorem variant_eq (base : String) (n : UInt32) :
    variant base n = dashed base (Numeral.write n.toNat) :=
  rfl

theorem dashed_injective (base : String) : Function.Injective (dashed base) := by
  intro ds ds' h
  have h := List.append_cancel_left (String.ofList_injective h)
  exact List.tail_eq_of_cons_eq h

theorem dashed_ne (base : String) (ds : List Char) : dashed base ds ≠ base := by
  intro h
  have h := congrArg (fun s => s.toList.length) h
  simp [dashed] at h

theorem afterBase?_eq_some {base slug : String} {ds : List Char} :
    afterBase? base slug = some ds ↔ slug = dashed base ds := by
  have hiff : ∀ rest, base.toList.isPrefixOf? slug.toList = some rest ↔
      slug = String.ofList (base.toList ++ rest) := fun rest => by
    rw [List.isPrefixOf?_eq_some_iff_append_eq, eq_comm, ← String.toList_inj, String.toList_ofList]
  rw [afterBase?]
  split
  · next rest h =>
    rw [hiff] at h
    rw [h, Option.some_inj]
    exact ⟨fun h => by rw [h, dashed], fun h => dashed_injective base h⟩
  · next h =>
    refine ⟨fun h => absurd h (by simp), fun hs => absurd ((hiff _).mpr hs) (h ds)⟩

@[simp] theorem afterBase?_dashed (base : String) (ds : List Char) :
    afterBase? base (dashed base ds) = some ds := afterBase?_eq_some.mpr rfl

/-- **A slug is a variant of a base** if it is the base, a hyphen and at least one digit. -/
theorem suffix?_eq_some {base slug : String} {ds : List Char} :
    suffix? base slug = some ds ↔ slug = dashed base ds ∧ ds ≠ [] ∧ ∀ c ∈ ds, c.isDigit := by
  rw [suffix?, Option.filter_eq_some_iff, afterBase?_eq_some]
  simp

theorem suffix?_self (base : String) : suffix? base base = none := by
  rw [Option.eq_none_iff_forall_ne_some]
  intro ds h
  exact dashed_ne base ds (suffix?_eq_some.mp h).1.symm

theorem suffix?_write (base : String) (n : Nat) :
    suffix? base (dashed base (Numeral.write n)) = some (Numeral.write n) :=
  suffix?_eq_some.mpr ⟨rfl, Numeral.write_ne_nil n, fun _ => Numeral.isDigit_of_mem_write⟩

@[simp] theorem suffixValue_write (n : Nat) : suffixValue (Numeral.write n) = n :=
  Nat.ofDigitChars_ten_toDigits

/-- **The number of a stored variant** is the value of its digits, if that has 32 bits. -/
theorem number_dashed {base : String} {ds : List Char} (hne : ds ≠ []) (hd : ∀ c ∈ ds, c.isDigit) :
    number base (dashed base ds) = if suffixValue ds ≤ maxNumber
      then .ok (UInt32.ofNat (suffixValue ds))
      else .error .tooLarge := by
  rw [number, afterBase?_dashed, Option.getD_some, Numeral.read_digits hne hd, suffixValue]
  split <;> rfl

theorem number_write (base : String) (n : Nat) : number base (dashed base (Numeral.write n)) =
    if n ≤ maxNumber then .ok (UInt32.ofNat n) else .error .tooLarge := by
  rw [number_dashed (Numeral.write_ne_nil n) fun _ => Numeral.isDigit_of_mem_write,
    suffixValue_write]

/-! ## Variants as slugs -/

theorem joinsWords_append (inWord : Bool) (cs ds : List Char) :
    joinsWords inWord (cs ++ '-' :: ds) = (joinsWords inWord cs && joinsWords false ds) := by
  induction cs generalizing inWord with
  | nil => rfl
  | cons c cs ih =>
    simp only [List.cons_append, joinsWords]
    split
    · exact ih true
    · simp only [ih false, Bool.and_assoc]

theorem joinsWords_word {inWord : Bool} {cs : List Char} (hne : inWord = true ∨ cs ≠ [])
    (hcs : ∀ c ∈ cs, isWordChar c = true) : joinsWords inWord cs = true := by
  induction cs generalizing inWord with
  | nil => exact hne.resolve_right fun h => h rfl
  | cons c cs ih =>
    rw [joinsWords, if_pos (hcs c List.mem_cons_self)]
    exact ih (.inl rfl) fun c hc => hcs c (List.mem_cons_of_mem _ hc)

theorem joinsWords_digits {inWord : Bool} {ds : List Char} (hne : inWord = true ∨ ds ≠ [])
    (hd : ∀ c ∈ ds, c.isDigit) : joinsWords inWord ds = true :=
  joinsWords_word hne fun c hc => by rw [isWordChar, hd c hc, Bool.or_true]

theorem joinsWords_chars {inWord : Bool} {cs : List Char} (h : joinsWords inWord cs = true) :
    ∀ c ∈ cs, isWordChar c = true ∨ c = '-' := by
  induction cs generalizing inWord with
  | nil => exact fun c hc => absurd hc List.not_mem_nil
  | cons d cs ih =>
    rw [joinsWords] at h
    split at h
    · next hd => exact List.forall_mem_cons.mpr ⟨.inl hd, ih h⟩
    · obtain ⟨h, hrest⟩ := Bool.and_eq_true_iff.mp h
      obtain ⟨hd, -⟩ := Bool.and_eq_true_iff.mp h
      exact List.forall_mem_cons.mpr ⟨.inr (eq_of_beq hd), ih hrest⟩

/-- **A slug** is words joined by hyphens, with as many bytes as it may have. -/
theorem check_eq_ok {slug : String} :
    check slug = .ok () ↔ joinsWords false slug.toList = true ∧ slug.utf8ByteSize ≤ maxBytes := by
  unfold check
  split_ifs with hempty hlong hwords
  · rw [String.isEmpty_iff.mp hempty]
    exact ⟨nofun, nofun⟩
  · exact ⟨nofun, fun h => absurd h.2 (Nat.not_le_of_lt hlong)⟩
  · exact ⟨fun _ => ⟨hwords, Nat.le_of_not_lt hlong⟩, fun _ => rfl⟩
  · exact ⟨nofun, fun h => absurd h.1 hwords⟩

/-- **A variant of a slug is no slug only if it is too long.** -/
theorem check_dashed_error {base : String} {ds : List Char} {fault : Fault}
    (hbase : check base = .ok ()) (hne : ds ≠ []) (hd : ∀ c ∈ ds, c.isDigit)
    (h : check (dashed base ds) = .error fault) :
    fault = .tooLong (dashed base ds).utf8ByteSize ∧ maxBytes < (dashed base ds).utf8ByteSize := by
  have hwords : joinsWords false base.toList = true := (check_eq_ok.mp hbase).1
  have hform : joinsWords false (dashed base ds).toList = true := by
    rw [dashed, String.toList_ofList, joinsWords_append, hwords, joinsWords_digits (.inr hne) hd]
    rfl
  unfold check at h
  split_ifs at h with hempty hlong
  · rw [String.isEmpty_iff] at hempty
    rw [hempty] at hform
    cases hform
  · exact ⟨(Except.error.inj h).symm, hlong⟩

end Slug

/-! ## Numerals between blanks

What a text has to look like for a number to be read from it.

* `Numeral.Spells`: a numeral of a number, with `Numeral.read_eq_ok` and, for positive numbers with
  a sign, `Numeral.readInt64?_pos`;
* `Text.eq_trim`, `Text.trim_ends`, `Text.trim_blanks`: a text is what is left of it between blanks.
-/

/-! ### Numerals -/

namespace Numeral

variable {max n m : Nat} {cs : List Char}

/-- One digit or more, with the value `n`; a plus may stand before them. -/
def Spells (cs : List Char) (n : Nat) : Prop :=
  ∃ ds, (cs = ds ∨ cs = '+' :: ds) ∧ ds ≠ [] ∧ (∀ c ∈ ds, c.isDigit) ∧ Nat.ofDigitChars 10 ds 0 = n

theorem isDigit_of_readFrom (h : readFrom max n cs = .ok m) : ∀ c ∈ cs, c.isDigit := by
  induction cs generalizing n with
  | nil => exact fun c hc => absurd hc List.not_mem_nil
  | cons c cs ih =>
    rw [readFrom] at h
    split at h
    · next hc =>
      split at h
      · exact List.forall_mem_cons.mpr ⟨hc, ih h⟩
      · cases h
    · cases h

theorem readDigits_eq_ok : readDigits max cs = .ok n ↔
    cs ≠ [] ∧ (∀ c ∈ cs, c.isDigit) ∧ Nat.ofDigitChars 10 cs 0 = n ∧ n ≤ max := by
  cases cs with
  | nil => exact ⟨nofun, fun h => absurd rfl h.1⟩
  | cons c cs =>
    have hvalue (hd : ∀ d ∈ c :: cs, d.isDigit) := readFrom_eq (Nat.zero_le max) hd
    constructor
    · intro h
      have hd : ∀ d ∈ c :: cs, d.isDigit := isDigit_of_readFrom h
      rw [readDigits, hvalue hd] at h
      split at h
      · next hle =>
        cases h
        exact ⟨List.cons_ne_nil c cs, hd, rfl, hle⟩
      · cases h
    · rintro ⟨-, hd, rfl, hle⟩
      rw [readDigits, hvalue hd, if_pos hle]

/-- **A text is read as a number** if it is a numeral of the number, and the number is not too
large. -/
theorem read_eq_ok : read max cs = .ok n ↔ Spells cs n ∧ n ≤ max := by
  have hplus {ds : List Char} (hd : ∀ c ∈ ds, c.isDigit) : '+' ∉ ds :=
    fun h => absurd (hd '+' h) (by decide)
  unfold read
  split
  · refine ⟨nofun, ?_⟩
    rintro ⟨⟨ds, hds | hds, hne, -⟩, -⟩
    · exact absurd hds.symm hne
    · cases hds
  · next cs =>
    rw [readDigits_eq_ok]
    constructor
    · rintro ⟨hne, hd, hvalue, hle⟩
      exact ⟨⟨cs, .inr rfl, hne, hd, hvalue⟩, hle⟩
    · rintro ⟨⟨ds, hds | hds, hne, hd, hvalue⟩, hle⟩
      · exact absurd (hds ▸ List.mem_cons_self) (hplus hd)
      · cases hds
        exact ⟨hne, hd, hvalue, hle⟩
  · next c cs hc =>
    rw [readDigits_eq_ok]
    constructor
    · rintro ⟨hne, hd, hvalue, hle⟩
      exact ⟨⟨c :: cs, .inl rfl, hne, hd, hvalue⟩, hle⟩
    · rintro ⟨⟨ds, hds | hds, hne, hd, hvalue⟩, hle⟩
      · cases hds
        exact ⟨hne, hd, hvalue, hle⟩
      · exact absurd (List.head_eq_of_cons_eq hds) hc

/-- **A positive number of 64 bits with a sign** is read from its numerals; none is read behind a
minus. -/
theorem readInt64?_pos {i : Int} (hi : 0 < i) :
    readInt64? cs = some i ↔ ∃ n : Nat, i = n ∧ Spells cs n ∧ n ≤ 9223372036854775807 := by
  unfold readInt64? readSigned?
  split
  · next cs =>
    constructor
    · intro h
      obtain ⟨j, hj, rfl⟩ := Option.map_eq_some_iff.mp h
      obtain ⟨n, -, hn⟩ := Option.bind_eq_some_iff.mp hj
      cases hn
      exact absurd hi (by omega)
    · rintro ⟨n, -, ⟨ds, hds | hds, -, hd, -⟩, -⟩
      · exact absurd (hd '-' (hds ▸ List.mem_cons_self)) (by decide)
      · cases hds
  · cases hread : read 9223372036854775807 cs with
    | error fault =>
      refine ⟨nofun, ?_⟩
      rintro ⟨n, -, hn⟩
      cases hread.symm.trans (read_eq_ok.mpr hn)
    | ok m =>
      constructor
      · intro h
        exact ⟨m, (Option.some.inj h).symm, read_eq_ok.mp hread⟩
      · rintro ⟨n, rfl, hn⟩
        cases hread.symm.trans (read_eq_ok.mpr hn)
        rfl

end Numeral

/-! ### Blanks around a text -/

namespace Text

theorem trim_append (cs : List Char) :
    trim cs ++ ((cs.dropWhile isBlank).reverse.takeWhile isBlank).reverse =
      cs.dropWhile isBlank := by
  rw [trim, ← List.reverse_append, List.takeWhile_append_dropWhile, List.reverse_reverse]

theorem eq_trim (cs : List Char) :
    ∃ left right, cs = left ++ trim cs ++ right ∧ ∀ c ∈ left ++ right, isBlank c = true := by
  have hblank (ds : List Char) : ∀ c ∈ ds.takeWhile isBlank, isBlank c = true :=
    fun c => List.mem_takeWhile_imp
  let rest := cs.dropWhile isBlank
  refine ⟨cs.takeWhile isBlank, (rest.reverse.takeWhile isBlank).reverse, ?_, ?_⟩
  · rw [List.append_assoc, trim_append, List.takeWhile_append_dropWhile]
  · intro c hc
    rcases List.mem_append.mp hc with hc | hc
    · exact hblank cs c hc
    · exact hblank rest.reverse c (List.mem_reverse.mp hc)

theorem isBlank_of_head?_dropWhile {cs : List Char} {c : Char}
    (h : (cs.dropWhile isBlank).head? = some c) :
    isBlank c = false := by
  have hnot := List.head?_dropWhile_not isBlank cs
  rwa [h] at hnot

theorem trim_ends (cs : List Char) : (∀ c, (trim cs).head? = some c → isBlank c = false) ∧
    ∀ c, (trim cs).getLast? = some c → isBlank c = false := by
  constructor
  · intro c hc
    have hrest : (cs.dropWhile isBlank).head? = some c := by
      rw [← trim_append, List.head?_append, hc, Option.some_or]
    exact isBlank_of_head?_dropWhile hrest
  · intro c hc
    rw [trim, List.getLast?_reverse] at hc
    exact isBlank_of_head?_dropWhile hc

theorem dropWhile_blanks {left core : List Char} (hleft : ∀ c ∈ left, isBlank c = true)
    (hcore : ∀ c, core.head? = some c → isBlank c = false) :
    (left ++ core).dropWhile isBlank = core := by
  rw [List.dropWhile_append_of_pos hleft]
  cases core with
  | nil => rfl
  | cons c cs => rw [List.dropWhile_cons_of_neg (Bool.not_eq_true _ ▸ hcore c rfl)]

/-- **Blanks around a text are trimmed**, and no more. -/
theorem trim_blanks {left core right : List Char} (hblank : ∀ c ∈ left ++ right, isBlank c = true)
    (hhead : ∀ c, core.head? = some c → isBlank c = false)
    (hlast : ∀ c, core.getLast? = some c → isBlank c = false) :
    trim (left ++ core ++ right) = core := by
  cases core with
  | nil =>
    have hall : (left ++ right).dropWhile isBlank = [] := List.dropWhile_eq_nil_iff.mpr hblank
    rw [List.append_nil, trim, hall]
    rfl
  | cons c cs =>
    have hleft : ∀ d ∈ left, isBlank d = true := fun d hd => hblank d (List.mem_append_left _ hd)
    have hright : ∀ d ∈ right.reverse, isBlank d = true := fun d hd =>
      hblank d (List.mem_append_right _ (List.mem_reverse.mp hd))
    have hstart : ∀ d, (c :: cs ++ right).head? = some d → isBlank d = false :=
      fun d hd => hhead d hd
    have hend : ∀ d, (c :: cs).reverse.head? = some d → isBlank d = false := by
      intro d hd
      rw [List.head?_reverse] at hd
      exact hlast d hd
    rw [trim, List.append_assoc, dropWhile_blanks hleft hstart, List.reverse_append,
      dropWhile_blanks hright hend, List.reverse_reverse]

end Text

end Storyline
