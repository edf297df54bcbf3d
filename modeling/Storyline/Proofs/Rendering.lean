import Storyline.Json.Text
import Storyline.Proofs.Families

/-!
# Reading what has been written

The text of a value is read back as this value, whatever characters its texts hold.

* `piece_escapeChar`, `quoted_escaped`: quoted texts;
* `number_write`, `number_minus`: integers of 64 bits;
* `Plain`: values without other numbers, with `Plain.reads`;
* **`ofText_render`**, `decode_render`: a whole text.
-/

namespace Storyline.Json

/-! ## Quoted texts -/

theorem hexValue?_hexDigit : ∀ n < 16, hexValue? (hexDigit n) = some n := by decide

theorem hexUnit_control {n : Nat} (hn : n < 32) (rest : List Char) :
    hexUnit ('0' :: '0' :: hexDigit (n / 16) :: hexDigit (n % 16) :: rest) = .ok (n, rest) := by
  have hzero : hexValue? '0' = some 0 := by decide
  have hhigh := hexValue?_hexDigit (n / 16) (by omega)
  have hlow := hexValue?_hexDigit (n % 16) (by omega)
  simp only [hexUnit, hzero, hhigh, hlow]
  congr 2
  omega

theorem piece_escapeChar (c : Char) (rest : List Char) :
    piece (escapeChar c ++ rest) = .char c rest := by
  unfold escapeChar
  split_ifs with h₁ h₂ h₃ h₄ h₅ h₆ h₇ hcontrol
  any_goals subst c; rfl
  · have hhigh : isHighHalf c.toNat = false := by simp [isHighHalf]; omega
    have hlow : isLowHalf c.toNat = false := by simp [isLowHalf]; omega
    simp only [List.cons_append, List.nil_append, piece, hexUnit_control hcontrol, hlow,
      hhigh, Char.ofNat_toNat]
    rfl
  · change piece (c :: rest) = _
    rw [piece, if_neg hcontrol]
    · exact h₁
    · exact fun h _ => h₂ h
    · exact fun _ h _ => h₂ h
    · exact fun _ _ h _ => h₂ h

theorem quotedFrom_escaped (cs rest : List Char) {fuel : Nat} (hfuel : cs.length < fuel)
    (text : List Char) :
    quotedFrom fuel (some text) (cs.flatMap escapeChar ++ '"' :: rest) =
      .closed (some (String.ofList (text.reverse ++ cs))) rest := by
  -- one step for each character and one for the closing quote
  induction cs generalizing fuel text with
  | nil =>
    obtain ⟨fuel, rfl⟩ := Nat.exists_eq_add_one_of_ne_zero (Nat.ne_of_gt hfuel)
    simp [quotedFrom, piece]
  | cons c cs ih =>
    obtain ⟨fuel, rfl⟩ := Nat.exists_eq_add_one_of_ne_zero (Nat.ne_zero_of_lt hfuel)
    have hrest := ih (Nat.lt_of_succ_lt_succ hfuel) (c :: text)
    rw [List.flatMap_cons, List.append_assoc, quotedFrom, piece_escapeChar]
    simpa using hrest

theorem length_le_escaped (cs : List Char) : cs.length ≤ (cs.flatMap escapeChar).length := by
  induction cs with
  | nil => exact Nat.le_refl 0
  | cons c cs ih =>
    have hc : 1 ≤ (escapeChar c).length := by
      unfold escapeChar
      split_ifs <;> simp
    simp only [List.flatMap_cons, List.length_append, List.length_cons]
    omega

theorem quoted_escaped (s : String) (rest : List Char) :
    quoted (s.toList.flatMap escapeChar ++ '"' :: rest) = .closed (some s) rest := by
  have hfuel : s.toList.length < (s.toList.flatMap escapeChar ++ '"' :: rest).length + 1 := by
    have := length_le_escaped s.toList
    simp only [List.length_append, List.length_cons]
    omega
  rw [quoted, quotedFrom_escaped _ _ hfuel]
  simp

/-! ## Integers -/

section Integers

open Numeral

/-- What stands behind a value inside another one, or nothing. -/
def Delimited (rest : List Char) : Prop := ∀ c, rest.head? = some c → c = ',' ∨ c = ']' ∨ c = '}'

theorem roundTo53_le (n : Nat) : roundTo53 n ≤ 2 * n := by
  rcases Nat.eq_zero_or_pos n with rfl | hn
  · decide
  have hunit : 1 <<< (n.log2 + 1 - 53) ≤ n := by
    rw [Nat.shiftLeft_eq, Nat.one_mul]
    exact (Nat.pow_le_pow_right (by decide) (by omega)).trans (Nat.log2_self_le (Nat.ne_of_gt hn))
  have hlow : n / 1 <<< (n.log2 + 1 - 53) * 1 <<< (n.log2 + 1 - 53) ≤ n := Nat.div_mul_le_self _ _
  simp only [roundTo53]
  split
  · rw [Nat.add_mul, Nat.one_mul]
    omega
  · omega

theorem gather_eq {cs : List Char} {significand : Nat} (taken : Nat)
    (h : Nat.ofDigitChars 10 cs significand < UInt64.size) :
    gather significand taken cs = (Nat.ofDigitChars 10 cs significand, taken + cs.length) := by
  induction cs generalizing significand taken with
  | nil => rfl
  | cons c cs ih =>
    rw [Nat.ofDigitChars_cons] at h ⊢
    have hle := le_ofDigitChars (10 * significand + (c.toNat - '0'.toNat)) cs
    rw [gather, if_pos (by omega), ih _ h, List.length_cons]
    congr 1
    omega

theorem exceedsRange_integer {ds : List Char} (h : digitsValue ds < UInt64.size) :
    exceedsRange ds [] 0 = false := by
  have hround : roundTo53 (digitsValue ds) < 2 ^ 65 := by
    have := roundTo53_le (digitsValue ds)
    have hsize : UInt64.size = 2 ^ 64 := rfl
    omega
  have hone : roundTo53 (Nat.pow 10 (Int.toNat 0)) = 1 := by decide
  have hrange : 2 ^ 65 < 1 <<< 1024 - 1 <<< 970 := by decide
  have hgather : gather 0 0 ds = (digitsValue ds, ds.length) := by
    rw [gather_eq 0 h, Nat.zero_add]
    rfl
  simp only [exceedsRange, hgather, gather, isExcessive, Nat.sub_self, Nat.cast_zero,
    Int.sub_zero, Int.add_zero, hone, Nat.mul_one]
  rw [decide_eq_false (by omega : ¬1 <<< 1024 - 1 <<< 970 ≤ roundTo53 (digitsValue ds))]
  simp

theorem Delimited.stops {rest : List Char} (h : Delimited rest) {c : Char}
    (hc : rest.head? = some c) :
    c.isDigit = false ∧ c ≠ '.' ∧ c ≠ 'e' ∧ c ≠ 'E' := by
  rcases h c hc with rfl | rfl | rfl <;> decide

theorem Delimited.span {rest : List Char} (h : Delimited rest) :
    rest.takeWhile Char.isDigit = [] ∧ rest.dropWhile Char.isDigit = rest := by
  cases rest with
  | nil => exact ⟨rfl, rfl⟩
  | cons c cs =>
    have hc := (h.stops rfl).1
    exact ⟨List.takeWhile_cons_of_neg (by simp [hc]), List.dropWhile_cons_of_neg (by simp [hc])⟩

theorem numberBody_write (negative : Bool) (n : Nat) {rest : List Char} (hrest : Delimited rest) :
    numberBody negative (write n ++ rest) = (integerDraft negative (write n), rest) := by
  have hdigits : ∀ c ∈ write n, c.isDigit = true := fun _ => isDigit_of_mem_write
  have hwhole : (write n ++ rest).takeWhile Char.isDigit = write n := by
    rw [List.takeWhile_append_of_pos hdigits, hrest.span.1, List.append_nil]
  have hbehind : (write n ++ rest).dropWhile Char.isDigit = rest := by
    rw [List.dropWhile_append_of_pos hdigits, hrest.span.2]
  simp only [numberBody, hwhole, hbehind]
  split
  · next h => exact absurd h (write_ne_nil n)
  · next c cs h => cases canonical_write n _ h
  · split
    · exact absurd rfl (hrest.stops rfl).2.1
    · cases rest with
      | nil => rfl
      | cons c cs =>
        obtain ⟨-, -, he, hE⟩ := hrest.stops rfl
        simp [numberTail, numberTail.plain, he, hE]

theorem digitsValue_write (n : Nat) : digitsValue (write n) = n := Nat.ofDigitChars_ten_toDigits

theorem number_write {n : Nat} (hn : n < UInt64.size) {rest : List Char} (hrest : Delimited rest) :
    number (write n ++ rest) = (.int n, rest) := by
  have hbody : number (write n ++ rest) = numberBody false (write n ++ rest) := by
    obtain ⟨c, cs, hcs⟩ := List.exists_cons_of_ne_nil (write_ne_nil n)
    have hc : c.isDigit = true := isDigit_of_mem_write (hcs ▸ List.mem_cons_self)
    rw [hcs, List.cons_append, number]
    intro _ h
    rw [List.head_eq_of_cons_eq h] at hc
    cases hc
  rw [hbody, numberBody_write false n hrest, integerDraft,
    exceedsRange_integer (by rwa [digitsValue_write]), digitsValue_write]
  rfl

theorem number_minus {n : Nat} (hpos : n ≠ 0) (hn : n < UInt64.size) {rest : List Char}
    (hrest : Delimited rest) :
    number ('-' :: write n ++ rest) = (.int (-n), rest) := by
  change numberBody true (write n ++ rest) = _
  rw [numberBody_write true n hrest, integerDraft,
    exceedsRange_integer (by rwa [digitsValue_write]), digitsValue_write]
  simp [hpos]

end Integers

/-! ## Values -/

/-- The value holds no numbers but integers of 64 bits. -/
inductive Plain : Json → Prop
  | null : Plain .null
  | bool (b : Bool) : Plain (.bool b)
  | int {n : Int} (h : n.natAbs < UInt64.size) : Plain (.int n)
  | str (s : String) : Plain (.str s)
  | arr {items : List Json} (h : ∀ item ∈ items, Plain item) : Plain (.arr items)
  | obj {members : List (String × Json)} (h : ∀ member ∈ members, Plain member.2) :
      Plain (.obj members)

section Texts

variable (item : Json) (items : List Json) (key : String) (members : List (String × Json))

theorem toList_quote (s : String) :
    (quote s).toList = '"' :: s.toList.flatMap escapeChar ++ ['"'] :=
  String.toList_ofList

theorem toList_int (n : Nat) : (render (.int n)).toList = Numeral.write n := Nat.toList_repr

theorem toList_minus (n : Nat) :
    (render (.int (Int.negSucc n))).toList = '-' :: Numeral.write (n + 1) := by
  change ("-" ++ (n + 1).repr).toList = _
  rw [String.toList_append, Nat.toList_repr]
  rfl

theorem toList_arr :
    (render (.arr (item :: items))).toList =
      '[' :: (item.render.toList ++ (renderItems items).toList) := by
  simp [render]

theorem toList_items :
    (renderItems (item :: items)).toList =
      ',' :: (item.render.toList ++ (renderItems items).toList) := by
  simp [renderItems]

theorem toList_obj : (render (.obj ((key, item) :: members))).toList =
    '{' :: '"' :: (key.toList.flatMap escapeChar ++ '"' :: ':' ::
      (item.render.toList ++ (renderMembers members).toList)) := by
  simp [render, toList_quote]

theorem toList_members : (renderMembers ((key, item) :: members)).toList =
    ',' :: '"' :: (key.toList.flatMap escapeChar ++ '"' :: ':' ::
      (item.render.toList ++ (renderMembers members).toList)) := by
  simp [renderMembers, toList_quote]

end Texts

theorem isSpace_digit {c : Char} (hc : c.isDigit = true) : isSpace c = false := by
  rw [Bool.eq_false_iff]
  intro h
  simp only [isSpace, Bool.or_eq_true, beq_iff_eq] at h
  obtain ((rfl | rfl) | rfl) | rfl := h <;> cases hc

theorem skipSpace_cons {c : Char} (hc : isSpace c = false) (cs : List Char) :
    skipSpace (c :: cs) = c :: cs := by
  rw [skipSpace, List.dropWhile_cons_of_neg (by simp [hc])]

theorem render_head {j : Json} (hj : Plain j) :
    ∃ c cs, j.render.toList = c :: cs ∧ isSpace c = false ∧ c ≠ ']' := by
  cases hj with
  | null => exact ⟨'n', _, rfl, rfl, by decide⟩
  | bool b =>
    cases b with
    | true => exact ⟨'t', _, rfl, rfl, by decide⟩
    | false => exact ⟨'f', _, rfl, rfl, by decide⟩
  | @int n h =>
    cases n with
    | ofNat n =>
      obtain ⟨c, cs, hcs⟩ := List.exists_cons_of_ne_nil (Numeral.write_ne_nil n)
      have hc : c.isDigit = true := Numeral.isDigit_of_mem_write (hcs ▸ List.mem_cons_self)
      refine ⟨c, cs, (toList_int n).trans hcs, isSpace_digit hc, ?_⟩
      rintro rfl
      cases hc
    | negSucc n => exact ⟨'-', _, toList_minus n, rfl, by decide⟩
  | str s => exact ⟨'"', _, toList_quote s, rfl, by decide⟩
  | @arr items h =>
    cases items with
    | nil => exact ⟨'[', _, rfl, rfl, by decide⟩
    | cons item items => exact ⟨'[', _, toList_arr item items, rfl, by decide⟩
  | @obj members h =>
    cases members with
    | nil => exact ⟨'{', _, rfl, rfl, by decide⟩
    | cons member members => exact ⟨'{', _, toList_obj member.2 member.1 members, rfl, by decide⟩

theorem ofChars_digit {c : Char} (hc : c.isDigit = true) (fuel : Nat) (cs : List Char) :
    Draft.ofChars (fuel + 1) (c :: cs) = number (c :: cs) := by
  have hne (d : Char) (hd : d.isDigit = false) : c ≠ d := by
    rintro rfl
    cases hc.symm.trans hd
  rw [Draft.ofChars, skipSpace_cons (isSpace_digit hc)]
  split
  · next h => cases h
  iterate 6
    · next h => exact absurd (List.head_eq_of_cons_eq h) (hne _ rfl)
  · next h =>
    cases h
    exact if_pos (by simp [hc])

/-- The text of the value is read as the value, wherever it ends. -/
def Reads (j : Json) : Prop := ∀ fuel rest, Delimited rest → j.render.toList.length ≤ fuel →
  Draft.ofChars fuel (j.render.toList ++ rest) = (Draft.ofJson j, rest)

theorem exists_fuel {j : Json} (hj : Plain j) {fuel : Nat} (hfuel : j.render.toList.length ≤ fuel) :
    ∃ n, fuel = n + 1 := by
  obtain ⟨c, cs, hcs, -⟩ := render_head hj
  rw [hcs, List.length_cons] at hfuel
  exact Nat.exists_eq_add_one_of_ne_zero (by omega)

theorem reads_int {n : Int} (h : n.natAbs < UInt64.size) : Reads (.int n) := by
  intro fuel rest hrest hfuel
  obtain ⟨fuel, rfl⟩ := exists_fuel (.int h) hfuel
  cases n with
  | ofNat n =>
    obtain ⟨c, cs, hcs⟩ := List.exists_cons_of_ne_nil (Numeral.write_ne_nil n)
    have hc : c.isDigit = true := Numeral.isDigit_of_mem_write (hcs ▸ List.mem_cons_self)
    have hnumber : number (Numeral.write n ++ rest) = (.int n, rest) := number_write h hrest
    have hrender : (render (.int (Int.ofNat n))).toList = c :: cs := (toList_int n).trans hcs
    rw [hcs] at hnumber
    rw [hrender]
    exact (ofChars_digit hc fuel (cs ++ rest)).trans hnumber
  | negSucc n =>
    rw [toList_minus]
    exact number_minus (Nat.succ_ne_zero n) h hrest

theorem reads_str (s : String) : Reads (.str s) := by
  intro fuel rest _ hfuel
  obtain ⟨fuel, rfl⟩ := exists_fuel (.str s) hfuel
  have hrender : (render (.str s)).toList ++ rest =
      '"' :: (s.toList.flatMap escapeChar ++ '"' :: rest) := by
    simp [render, toList_quote]
  rw [hrender, Draft.ofChars, skipSpace_cons rfl]
  simp only [quoted_escaped]
  rfl

theorem delimited_items (items : List Json) (rest : List Char) :
    Delimited ((renderItems items).toList ++ rest) := by
  cases items with
  | nil => exact fun c hc => .inr (.inl (Option.some.inj hc).symm)
  | cons item items =>
    rw [toList_items]
    exact fun c hc => .inl (Option.some.inj hc).symm

theorem delimited_members (members : List (String × Json)) (rest : List Char) :
    Delimited ((renderMembers members).toList ++ rest) := by
  cases members with
  | nil => exact fun c hc => .inr (.inr (Option.some.inj hc).symm)
  | cons member members =>
    rw [toList_members]
    exact fun c hc => .inl (Option.some.inj hc).symm

theorem ofChars_items {items : List Json} (h : ∀ item ∈ items, Reads item) (fuel : Nat)
    (hfuel : (renderItems items).toList.length ≤ fuel) (rest : List Char) :
    Draft.Items.ofChars fuel ((renderItems items).toList ++ rest) =
      (Draft.Items.ofList items, rest) := by
  induction items generalizing fuel with
  | nil =>
    obtain ⟨fuel, rfl⟩ : ∃ n, fuel = n + 1 := Nat.exists_eq_add_one_of_ne_zero (Nat.ne_of_gt hfuel)
    rfl
  | cons item items ih =>
    rw [toList_items] at hfuel ⊢
    simp only [List.length_cons, List.length_append] at hfuel
    obtain ⟨fuel, rfl⟩ : ∃ n, fuel = n + 1 := Nat.exists_eq_add_one_of_ne_zero (by omega)
    have hitem := h item List.mem_cons_self fuel ((renderItems items).toList ++ rest)
      (delimited_items items rest)
      (by omega)
    have hitems := ih (fun item hmem => h item (List.mem_cons_of_mem _ hmem)) fuel (by omega)
    rw [List.cons_append, List.append_assoc, Draft.Items.ofChars, skipSpace_cons rfl]
    simp only [hitem, hitems]
    rfl

theorem reads_arr {items : List Json} (h : ∀ item ∈ items, Plain item)
    (ih : ∀ item ∈ items, Reads item) :
    Reads (.arr items) := by
  intro fuel rest _ hfuel
  obtain ⟨fuel, rfl⟩ := exists_fuel (.arr h) hfuel
  cases items with
  | nil => rfl
  | cons item items =>
    rw [toList_arr] at hfuel ⊢
    simp only [List.length_cons, List.length_append] at hfuel
    obtain ⟨c, cs, hcs, hspace, hclose⟩ := render_head (h item List.mem_cons_self)
    have hitem := ih item List.mem_cons_self fuel ((renderItems items).toList ++ rest)
      (delimited_items items rest) (by omega)
    have hitems := ofChars_items (fun item hmem => ih item (List.mem_cons_of_mem _ hmem)) fuel
      (by omega) rest
    rw [hcs] at hitem ⊢
    rw [List.cons_append, List.append_assoc, Draft.ofChars, skipSpace_cons rfl]
    simp only [List.cons_append, skipSpace_cons hspace] at hitem ⊢
    -- no item starts like the end of the array
    split
    · next h => cases h
    · next h => exact absurd (List.head_eq_of_cons_eq h) hclose
    · simp only [hitem, hitems]
      rfl

theorem ofChars_members {members : List (String × Json)} (h : ∀ member ∈ members, Reads member.2)
    (key : String) {item : Json} (hitem : Reads item) (fuel : Nat)
    (hfuel : item.render.toList.length + (renderMembers members).toList.length < fuel)
    (rest : List Char) :
    Draft.Members.ofChars fuel ('"' :: (key.toList.flatMap escapeChar ++ '"' :: ':' ::
      (item.render.toList ++ ((renderMembers members).toList ++ rest)))) =
        (.cons (some key) (Draft.ofJson item) (Draft.Members.ofList members), rest) := by
  induction members generalizing key item fuel with
  | nil =>
    obtain ⟨fuel, rfl⟩ : ∃ n, fuel = n + 1 := Nat.exists_eq_add_one_of_ne_zero (by omega)
    have hvalue := hitem fuel ((renderMembers []).toList ++ rest) (delimited_members [] rest)
      (by omega)
    rw [Draft.Members.ofChars, skipSpace_cons rfl]
    simp only [quoted_escaped, skipSpace_cons (c := ':') rfl, hvalue]
    rfl
  | cons member members ih =>
    obtain ⟨name, value⟩ := member
    rw [toList_members] at hfuel
    simp only [List.length_cons, List.length_append] at hfuel
    obtain ⟨fuel, rfl⟩ : ∃ n, fuel = n + 1 := Nat.exists_eq_add_one_of_ne_zero (by omega)
    have hvalue := hitem fuel ((renderMembers ((name, value) :: members)).toList ++ rest)
      (delimited_members _ rest)
      (by omega)
    have hitem' : Reads value := h (name, value) List.mem_cons_self
    have hmembers := ih (fun member hmem => h member (List.mem_cons_of_mem _ hmem)) name hitem' fuel
      (by omega)
    rw [Draft.Members.ofChars, skipSpace_cons rfl]
    simp only [quoted_escaped, skipSpace_cons (c := ':') rfl, hvalue]
    simp only [toList_members, List.cons_append, List.append_assoc,
      skipSpace_cons (c := ',') rfl, hmembers]
    rfl

theorem reads_obj {members : List (String × Json)} (h : ∀ member ∈ members, Plain member.2)
    (ih : ∀ member ∈ members, Reads member.2) : Reads (.obj members) := by
  intro fuel rest _ hfuel
  obtain ⟨fuel, rfl⟩ := exists_fuel (.obj h) hfuel
  cases members with
  | nil => rfl
  | cons member members =>
    rw [toList_obj] at hfuel ⊢
    simp only [List.length_cons, List.length_append] at hfuel
    have hmembers :=
      ofChars_members (fun member hmem => ih member (List.mem_cons_of_mem _ hmem)) member.1
      (ih member List.mem_cons_self) fuel (by omega) rest
    rw [List.cons_append, Draft.ofChars, skipSpace_cons rfl]
    simp only [List.cons_append, List.append_assoc, skipSpace_cons (c := '"') rfl]
    exact congrArg (fun r => (Draft.obj r.1, r.2)) hmembers

/-- **Every plain value is read as it is written**, whatever stands behind it. -/
theorem Plain.reads {j : Json} (hj : Plain j) : Reads j := by
  induction hj with
  | null =>
    intro fuel rest _ hfuel
    obtain ⟨fuel, rfl⟩ := exists_fuel .null hfuel
    rfl
  | bool b =>
    intro fuel rest _ hfuel
    obtain ⟨fuel, rfl⟩ := exists_fuel (.bool b) hfuel
    cases b <;> rfl
  | int h => exact reads_int h
  | str s => exact reads_str s
  | arr h ih => exact reads_arr h ih
  | obj h ih => exact reads_obj h ih

/-! ## Texts -/

/-- **The text of a plain value is read as this value**, to its end. -/
theorem ofText_render {j : Json} (hj : Plain j) : Draft.ofText j.render = (Draft.ofJson j, []) := by
  have h := hj.reads (j.render.toList.length + 1) [] nofun (Nat.le_succ _)
  rwa [List.append_nil] at h

theorem decode_render {j : Json} (hj : Plain j) {α : Type} (read : Draft → Except Fault α) :
    decode read j.render = read (Draft.ofJson j) := by
  simp only [decode, ofText_render hj]
  cases read (Draft.ofJson j) <;> rfl

end Storyline.Json
