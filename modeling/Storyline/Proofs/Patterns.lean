import Storyline.Proofs.Expressions
import Storyline.Proofs.Families
import Storyline.Proofs.Variant

/-!
# The pattern of the variants

The pattern of a base is a text that is read again, as a regular expression. What would have a
meaning of its own in the base has a backslash before it, so that the base stands for itself.

* `Slug.tokens_escape`, `Slug.read?_pattern`: how a pattern is read;
* `Slug.finds_variantExpression`: where the expression of the variants is found, and what its group
  captures;
* **`pattern_exact`**: a pattern means the variants of its base.
-/

namespace Storyline

open Expression

namespace Slug

variable {c : Char} {base : String}

/-! ## Reading a pattern -/

theorem isAlphanum_of_mem_metaChars : ∀ c ∈ metaChars, c.isAlphanum = false := by simp [metaChars]

theorem operators_subset_metaChars : operators ⊆ metaChars := by decide

theorem escape_cons (c : Char) (cs : List Char) :
    escape (c :: cs) = (if c ∈ metaChars then ['\\', c] else [c]) ++ escape cs := by
  simp [escape]

/-- **An escaped text is read as its characters.** -/
theorem tokens_escape (cs rest : List Char) :
    tokens none (escape cs ++ rest) = (tokens none rest).map
      (cs.map (fun c => .item (.char c)) ++ ·) := by
  induction cs with
  | nil => simp [escape]
  | cons c cs ih =>
    rw [escape_cons]
    split_ifs with hc
    · change tokens none ('\\' :: c :: (escape cs ++ rest)) = _
      rw [tokens_escaped (isAlphanum_of_mem_metaChars c hc), ih, Option.map_map]
      rfl
    · change tokens none (c :: (escape cs ++ rest)) = _
      rw [tokens_char fun h => hc (operators_subset_metaChars h), ih, Option.map_map]
      rfl

/-- One or more digits, captured. -/
def numberGroup : Expression := .group (.seq .empty (.plus (.set [('0', '9')])))

/-- The expression of the variants of a base. -/
def variantExpression (base : String) : Expression :=
  ((fromStart.chars (base.toList ++ ['-'])).seq numberGroup).seq .stop

theorem read?_pattern (base : String) :
    read? (pattern base).toList = some (variantExpression base) := by
  have hrest : tokens none "-([0-9]+)$".toList = some [.item (.char '-'), .opening true,
    .item (.set [('0', '9')]),
      .plus, .closing, .item .stop] := by decide
  have htokens : tokens none (pattern base).toList = some (.item .start ::
      ((base.toList ++ ['-']).map (fun c => .item (.char c)) ++ [.opening true,
        .item (.set [('0', '9')]), .plus, .closing, .item .stop])) := by
    rw [pattern, String.toList_ofList, List.cons_append]
    change ((tokens none (escape base.toList ++ "-([0-9]+)$".toList)).map (.item .start :: ·)) = _
    rw [tokens_escape, hrest]
    simp
  rw [read?, htokens, Option.bind_some, ofTokens?]
  change ofTokens? [] fromStart _ = _
  rw [ofTokens?_chars]
  rfl

/-! ## What it stands for -/

theorem isDigit_iff : c.isDigit = true ↔ '0' ≤ c ∧ c ≤ '9' := by
  simp [Char.isDigit, Char.le_def]

theorem inRanges_digits : InRanges [('0', '9')] c ↔ '0' ≤ c ∧ c ≤ '9' := by simp [InRanges]

theorem matches_numberGroup {l w r : List Char} {gs : List (List Char)} :
    numberGroup.Matches l w r gs ↔
      (w ≠ [] ∧ ∀ c ∈ w, '0' ≤ c ∧ c ≤ '9') ∧ gs = [w] := by
  have hdigits : (Expression.plus (.set [('0', '9')])).Denotes fun w => w ≠ [] ∧
      ∀ c ∈ w, '0' ≤ c ∧ c ≤ '9' := by
    simpa only [inRanges_digits] using @denotes_plus_set [('0', '9')]
  rw [numberGroup, matches_group]
  constructor
  · rintro ⟨gs, rfl, h⟩
    obtain ⟨hw, rfl⟩ := hdigits.first.mp h
    exact ⟨hw, rfl⟩
  · rintro ⟨hw, rfl⟩
    exact ⟨[], rfl, hdigits.first.mpr ⟨hw, rfl⟩⟩

/-- **The expression is found in the variants of the base**, and what it captures are their
digits. -/
theorem finds_variantExpression {text : List Char} {groups : List (List Char)} :
    (variantExpression base).Finds text groups ↔ ∃ ds, text = base.toList ++ '-' :: ds ∧ ds ≠ [] ∧
      (∀ c ∈ ds, '0' ≤ c ∧ c ≤ '9') ∧ groups = [ds] := by
  rw [variantExpression, ((atStart_fromStart.chars _).seq _).finds, matches_seq]
  simp only [matches_chars, matches_fromStart, matches_numberGroup]
  constructor
  · rintro ⟨_, ds, _, _, rfl, rfl, ⟨_, rfl, -, rfl, rfl⟩, ⟨hne, hd⟩, rfl⟩
    exact ⟨ds, by simp, hne, hd, rfl⟩
  · rintro ⟨ds, rfl, hne, hd, rfl⟩
    exact ⟨base.toList ++ ['-'], ds, [], [ds], by simp, rfl, ⟨[], rfl, trivial, rfl, rfl⟩,
      ⟨hne, hd⟩, rfl⟩

end Slug

open Slug

/-- **A pattern means the variants of its base**, whatever characters the base has. It is read as an
expression that is found in a text if the text is the base with a hyphen and one or more digits, and
its group captures these digits and nothing else, as when the latest variant is looked for. So
different bases have different patterns. -/
theorem pattern_exact (base : String) :
    (∃ e, read? (pattern base).toList = some e ∧
      (∀ (slug : String) (groups : List (List Char)), e.Finds slug.toList groups ↔ ∃ ds,
        slug = base ++ "-" ++ String.ofList ds ∧ ds ≠ [] ∧ (∀ c ∈ ds, '0' ≤ c ∧ c ≤ '9') ∧
          groups = [ds]) ∧
      ∀ slug ds, suffix? base slug = some ds ↔ e.Finds slug.toList [ds]) ∧
    ∀ base', pattern base' = pattern base → base' = base := by
  refine ⟨⟨variantExpression base, read?_pattern base, fun slug groups => ?_, fun slug ds => ?_⟩,
    fun base' h => ?_⟩
  · simp only [finds_variantExpression, ← String.toList_inj, String.toList_append,
      String.toList_ofList]
    simp
  · simp only [finds_variantExpression, suffix?_eq_some, isDigit_iff, dashed, ← String.toList_inj,
      String.toList_ofList]
    simp
  · -- the first variant of the one base is one of the other
    have hread : variantExpression base' = variantExpression base := by
      have hread := read?_pattern base'
      rw [h, read?_pattern] at hread
      exact (Option.some.inj hread).symm
    have hfirst : (variantExpression base).Finds (base.toList ++ ['-', '0']) [['0']] :=
      finds_variantExpression.mpr ⟨['0'], rfl, by simp, by simp, rfl⟩
    rw [← hread] at hfirst
    obtain ⟨ds, htext, -, -, hds⟩ := finds_variantExpression.mp hfirst
    obtain rfl : ['0'] = ds := by simpa using hds
    exact (String.toList_injective (List.append_cancel_right htext)).symm

example : pattern "a.b" = "^a\\.b-([0-9]+)$" ∧ read? "^a.b-([0-9]+)$".toList = none := by decide

/-! ## The words of slugs

The slugs among all texts are told by their characters one after the other. Two other ways lead to
the same: what stands between the hyphens of a text, and the form of slugs as a regular expression.

* `Slug.IsWord`, with `Slug.joinsWords_iff`: what stands between hyphens;
* `Slug.read?_form`, `Slug.finds_formExpression`: the form of slugs;
* **`check_exact`**: which texts are slugs, by either of these, and which variants are.
-/

namespace Slug

variable {c : Char} {cs w : List Char} {ws : List (List Char)} {base slug : String} {n : UInt32}

/-! ### Between hyphens -/

/-- One or more lowercase letters and digits. -/
def IsWord (w : List Char) : Prop := w ≠ [] ∧ ∀ c ∈ w, 'a' ≤ c ∧ c ≤ 'z' ∨ '0' ≤ c ∧ c ≤ '9'

theorem isLower_iff : c.isLower = true ↔ 'a' ≤ c ∧ c ≤ 'z' := by
  change (decide ('a' ≤ c) && decide (c ≤ 'z')) = true ↔ _
  rw [Bool.and_eq_true, decide_eq_true_iff, decide_eq_true_iff]

theorem isWordChar_iff : isWordChar c = true ↔ 'a' ≤ c ∧ c ≤ 'z' ∨ '0' ≤ c ∧ c ≤ '9' := by
  rw [isWordChar, Bool.or_eq_true, isLower_iff, isDigit_iff]

theorem IsWord.not_mem_hyphen (hw : IsWord w) : '-' ∉ w := fun h => absurd (hw.2 '-' h) (by decide)

theorem joinsWords_of_not_mem (h : '-' ∉ cs) : joinsWords false cs = true ↔ IsWord cs := by
  simp only [IsWord, ← isWordChar_iff]
  constructor
  · intro hjoins
    refine ⟨?_, fun c hc =>
      (joinsWords_chars hjoins c hc).resolve_right (ne_of_mem_of_not_mem hc h)⟩
    rintro rfl
    cases hjoins
  · exact fun ⟨hne, hcs⟩ => joinsWords_word (.inr hne) hcs

/-- **Words joined by hyphens are what is found between these.** -/
theorem joinsWords_iff (cs : List Char) :
    joinsWords false cs = true ↔ ∀ w ∈ cs.splitOn '-', IsWord w := by
  -- on the length, since a text is cut at any of its hyphens
  induction hn : cs.length using Nat.strongRecOn generalizing cs with
  | ind n ih =>
    by_cases h : '-' ∈ cs
    · obtain ⟨ds, es, rfl⟩ := List.append_of_mem h
      have hds := ih ds.length (by simp at hn; omega) ds rfl
      have hes := ih es.length (by simp at hn; omega) es rfl
      rw [joinsWords_append, Bool.and_eq_true, hds, hes, List.splitOn_append_cons_self,
        List.forall_mem_append]
    · rw [joinsWords_of_not_mem h, List.splitOn_eq_singleton h]
      simp

/-! ### The form -/

theorem intercalate_cons (w : List Char) (ws : List (List Char)) :
    ['-'].intercalate (w :: ws) = w ++ (ws.map ('-' :: ·)).flatten := by
  induction ws generalizing w with
  | nil => simp
  | cons v ws ih => simp [List.intercalate_cons_cons, ih]

theorem splitOn_words_iff :
    (∀ w ∈ cs.splitOn '-', IsWord w) ↔ ∃ w ws, cs = ['-'].intercalate (w :: ws) ∧
      ∀ v ∈ w :: ws, IsWord v := by
  constructor
  · intro h
    obtain ⟨w, ws, hcut⟩ := List.exists_cons_of_ne_nil (List.splitOn_ne_nil '-' cs)
    refine ⟨w, ws, ?_, hcut ▸ h⟩
    rw [← hcut, List.intercalate_splitOn]
  · rintro ⟨w, ws, rfl, hws⟩
    rwa [List.splitOn_intercalate '-' (fun v hv => (hws v hv).not_mem_hyphen)
      (List.cons_ne_nil w ws)]

/-- The expression of a word. -/
def wordExpression : Expression := .plus (.set [('a', 'z'), ('0', '9')])

/-- The expression of a slug. -/
def formExpression : Expression :=
  ((fromStart.seq wordExpression).seq
    (.star ((Expression.empty.seq (.char '-')).seq wordExpression))).seq .stop

theorem read?_form : read? form.toList = some formExpression := by decide

theorem inRanges_word :
    InRanges [('a', 'z'), ('0', '9')] c ↔ 'a' ≤ c ∧ c ≤ 'z' ∨ '0' ≤ c ∧ c ≤ '9' := by
  simp [InRanges]

theorem denotes_wordExpression : wordExpression.Denotes IsWord := by
  have h := @denotes_plus_set [('a', 'z'), ('0', '9')]
  simp only [inRanges_word] at h
  exact h

theorem denotes_furtherWords :
    (Expression.star ((Expression.empty.seq (.char '-')).seq wordExpression)).Denotes
      fun text => ∃ ws : List (List Char), text = (ws.map ('-' :: ·)).flatten ∧
        ∀ w ∈ ws, IsWord w := by
  have hchar : (Expression.char '-').Denotes (· = ['-']) := fun _ _ _ _ => matches_char
  intro l text r gs
  rw [(hchar.first.seq denotes_wordExpression).star]
  refine and_congr_left fun _ => ⟨?_, ?_⟩
  · rintro ⟨vs, rfl, hvs⟩
    have htail : ∀ v ∈ vs, '-' :: v.tail = v ∧ IsWord v.tail := by
      intro v hv
      obtain ⟨_, w, rfl, rfl, hw⟩ := hvs v hv
      exact ⟨rfl, hw⟩
    have hmap : (vs.map List.tail).map ('-' :: ·) = vs := by
      rw [List.map_map]
      exact (List.map_congr_left fun v hv => (htail v hv).1).trans (List.map_id' vs)
    exact ⟨vs.map List.tail, congrArg List.flatten hmap.symm, by simpa using fun v hv =>
      (htail v hv).2⟩
  · rintro ⟨ws, rfl, hws⟩
    refine ⟨_, rfl, fun v hv => ?_⟩
    obtain ⟨w, hw, rfl⟩ := List.mem_map.mp hv
    exact ⟨['-'], w, rfl, rfl, hws w hw⟩

/-- **The form of slugs** is found in words that are joined by hyphens. -/
theorem finds_formExpression {gs : List (List Char)} :
    formExpression.Finds cs gs ↔ (∀ w ∈ cs.splitOn '-', IsWord w) ∧ gs = [] := by
  rw [formExpression, ((atStart_fromStart.seq _).seq _).finds, splitOn_words_iff, matches_seq]
  simp only [matches_seq, matches_fromStart, intercalate_cons, List.forall_mem_cons]
  constructor
  · rintro ⟨_, _, _, _, rfl, rfl, ⟨_, w, _, _, rfl, rfl, ⟨-, rfl, rfl⟩, hword⟩, hrest⟩
    obtain ⟨hw, rfl⟩ := denotes_wordExpression.mp hword
    obtain ⟨⟨ws, rfl, hws⟩, rfl⟩ := denotes_furtherWords.mp hrest
    exact ⟨⟨w, ws, rfl, hw, hws⟩, rfl⟩
  · rintro ⟨⟨w, ws, rfl, hw, hws⟩, rfl⟩
    refine ⟨w, _, [], [], rfl, rfl, ⟨[], w, [], [], rfl, rfl, ⟨trivial, rfl, rfl⟩, ?_⟩, ?_⟩
    · exact denotes_wordExpression.mpr ⟨hw, rfl⟩
    · exact denotes_furtherWords.mpr ⟨⟨ws, rfl, hws⟩, rfl⟩

end Slug

/-- **A slug follows its grammar**: it has 1 to 128 bytes, and what stands between its hyphens are
words of lowercase letters and digits, which is what its form says as a regular expression. A
numbered variant is a slug if its base is one and leaves room for a hyphen and the digits of the
number. -/
theorem check_exact :
    (∀ slug, check slug = .ok () ↔ 1 ≤ slug.utf8ByteSize ∧ slug.utf8ByteSize ≤ 128 ∧
      ∀ piece ∈ slug.toList.splitOn '-', piece ≠ [] ∧ ∀ c ∈ piece, 'a' ≤ c ∧ c ≤ 'z' ∨
        '0' ≤ c ∧ c ≤ '9') ∧
    (∃ e, read? form.toList = some e ∧ ∀ slug : String, (∃ groups, e.Finds slug.toList groups) ↔
      ∀ piece ∈ slug.toList.splitOn '-', piece ≠ [] ∧ ∀ c ∈ piece, 'a' ≤ c ∧ c ≤ 'z' ∨
        '0' ≤ c ∧ c ≤ '9') ∧
    ∀ base n, check (variant base n) = .ok () ↔ check base = .ok () ∧
      base.utf8ByteSize + 1 + (Nat.toDigits 10 n.toNat).length ≤ 128 := by
  refine ⟨fun slug => ?_, ⟨formExpression, read?_form, fun slug => ?_⟩, fun base n => ?_⟩
  · rw [check_eq_ok, joinsWords_iff, and_comm]
    refine ⟨fun ⟨hsize, hwords⟩ => ⟨?_, hsize, hwords⟩, And.right⟩
    rw [Nat.one_le_iff_ne_zero]
    intro hempty
    rw [String.utf8ByteSize_eq_zero_iff.mp hempty] at hwords
    exact absurd rfl (hwords [] (by decide)).1
  · simp only [finds_formExpression, exists_and_left, exists_eq, and_true]
    rfl
  · exact check_dashed_iff (Numeral.write_ne_nil n.toNat) fun _ => Numeral.isDigit_of_mem_write

example : check "act-\u0661" = .error (.malformed "act-\u0661") := by decide

end Storyline
