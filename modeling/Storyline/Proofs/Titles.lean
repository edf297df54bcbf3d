import Mathlib
import Storyline.Proofs.Families
import Storyline.Proofs.Patterns
import Storyline.Service.Handlers

/-!
# The slugs of titles

A title suggests a slug: its letters and digits, with a hyphen wherever something else stands
between them. A hyphen is written together with the character that follows it, so that what is
written is always words joined by single hyphens; the cut to the size of a slug may leave a hyphen
behind, which is taken off.

* `Slug.toLower_of_isWordChar`, `Slug.isWordChar_toLower`: the characters of titles that slugs are
  made of;
* `Slug.joinsWords_hyphenated`, `Slug.joinsWords_rdropWhile`: words stay joined by single hyphens;
* `Slug.check_ofTitle`, `Slug.ofTitle_eq_empty_iff`, `Slug.ofTitle_of_check`: what a title suggests;
* **`titles_slugs`**: which titles have a slug, which are their own slug, and which slug a request
  gets.
-/

namespace Storyline

namespace Slug

variable {c : Char} {cs ds : List Char} {slug title : String}

/-! ## Characters -/

theorem isAlphanum_of_isWordChar (h : isWordChar c = true) : c.isAlphanum = true := by
  rcases Bool.or_eq_true_iff.mp h with hlower | hdigit
  · simp [Char.isAlphanum, Char.isAlpha, hlower]
  · simp [Char.isAlphanum, hdigit]

theorem toLower_of_isWordChar (h : isWordChar c = true) : c.toLower = c := by
  apply Char.toLower_eq_of_not_isUpper
  rcases Bool.or_eq_true_iff.mp h with hlower | hdigit
  · exact Char.not_isUpper_of_isLower hlower
  · intro hupper
    have hrange := Char.isDigit_iff_toNat.mp hdigit
    simp [Char.isUpper, UInt32.le_iff_toNat_le] at hupper hrange
    omega

theorem isWordChar_toLower (h : c.isAlphanum = true) : isWordChar c.toLower = true := by
  rcases Bool.or_eq_true_iff.mp h with halpha | hdigit
  · rw [isWordChar, Char.isLower_toLower_eq_isAlpha, halpha, Bool.true_or]
  · have hword : isWordChar c = true := by rw [isWordChar, hdigit, Bool.or_true]
    rwa [toLower_of_isWordChar hword]

theorem utf8Size_of_isWordChar (h : isWordChar c = true) : c.utf8Size = 1 := by
  rcases Bool.or_eq_true_iff.mp h with hlower | hdigit
  · simp only [Char.isLower, Bool.and_eq_true, decide_eq_true_eq] at hlower
    exact Char.utf8Size_eq_one_iff.mpr (UInt32.le_trans hlower.2 (by decide))
  · exact utf8Size_digit hdigit

theorem utf8Size_of_joinsWords {inWord : Bool} (h : joinsWords inWord cs = true) :
    ∀ c ∈ cs, c.utf8Size = 1 := by
  intro c hc
  rcases joinsWords_chars h c hc with hword | rfl
  · exact utf8Size_of_isWordChar hword
  · decide

theorem check_ofList :
    check (String.ofList cs) = .ok () ↔ joinsWords false cs = true ∧ cs.length ≤ maxBytes := by
  rw [check_eq_ok, String.toList_ofList]
  apply and_congr_right
  intro hwords
  rw [utf8ByteSize_of_utf8Size (utf8Size_of_joinsWords hwords)]

/-! ## Letters and digits with hyphens between them -/

theorem hyphenated_eq_nil (h : ∀ c ∈ cs, c.isAlphanum = false) (started pending : Bool) :
    hyphenated started pending cs = [] := by
  induction cs generalizing pending with
  | nil => rfl
  | cons c cs ih =>
    have hc : ¬c.isAlphanum = true := by simp [h c List.mem_cons_self]
    rw [hyphenated, if_neg hc]
    exact ih (fun c hc => h c (List.mem_cons_of_mem _ hc)) true

theorem joinsWords_hyphenated (pending : Bool) (cs : List Char) :
    joinsWords true (hyphenated true pending cs) = true := by
  induction cs generalizing pending with
  | nil => rfl
  | cons c cs ih =>
    rw [hyphenated]
    by_cases hc : c.isAlphanum = true
    · have hword : isWordChar c.toLower = true := isWordChar_toLower hc
      have hhyphen : isWordChar '-' = false := by decide
      cases pending <;> simp [hc, joinsWords, hword, hhyphen, ih]
    · rw [if_neg hc]
      exact ih true

theorem joinsWords_hyphenated_title (h : ∃ c ∈ cs, c.isAlphanum = true) (pending : Bool) :
    joinsWords false (hyphenated false pending cs) = true := by
  induction cs generalizing pending with
  | nil => simp at h
  | cons c cs ih =>
    rw [hyphenated]
    by_cases hc : c.isAlphanum = true
    · simp [hc, joinsWords, isWordChar_toLower hc, joinsWords_hyphenated]
    · have hrest : ∃ c ∈ cs, c.isAlphanum = true := by simpa [hc] using h
      rw [if_neg hc]
      exact ih hrest true

/-- Words that are joined already are left as they are. Behind a word nothing is pending; behind a
hyphen it is the hyphen that is. -/
theorem hyphenated_of_joinsWords {inWord : Bool} (h : joinsWords inWord cs = true) :
    hyphenated true (!inWord) cs = if inWord then cs else '-' :: cs := by
  induction cs generalizing inWord with
  | nil =>
    obtain rfl : inWord = true := h
    rfl
  | cons c cs ih =>
    rw [joinsWords] at h
    by_cases hc : isWordChar c = true
    · have hkept : c.isAlphanum = true := isAlphanum_of_isWordChar hc
      have hrest : hyphenated true false cs = cs := ih ((if_pos hc).symm.trans h)
      cases inWord with
      | true => simp [hyphenated, hkept, toLower_of_isWordChar hc, hrest]
      | false => simp [hyphenated, hkept, toLower_of_isWordChar hc, hrest]
    · rw [if_neg hc] at h
      simp only [Bool.and_eq_true, beq_iff_eq] at h
      obtain ⟨⟨rfl, rfl⟩, hrest⟩ := h
      exact ih hrest

theorem hyphenated_title_of_joinsWords (h : joinsWords false cs = true) :
    hyphenated false false cs = cs := by
  cases cs with
  | nil => rfl
  | cons c cs =>
    have hc : isWordChar c = true := by
      by_contra hc
      simp [joinsWords, hc] at h
    rw [joinsWords, if_pos hc] at h
    have hkept : c.isAlphanum = true := isAlphanum_of_isWordChar hc
    have hrest : hyphenated true false cs = cs := hyphenated_of_joinsWords h
    simp [hyphenated, hkept, toLower_of_isWordChar hc, hrest]

/-! ## The cut -/

theorem joinsWords_upTo {inWord : Bool} (hc : isWordChar c = true)
    (h : joinsWords inWord (cs ++ c :: ds) = true) :
    joinsWords inWord (cs ++ [c]) = true := by
  induction cs generalizing inWord with
  | nil => simp [joinsWords, hc]
  | cons d cs ih =>
    rw [List.cons_append, joinsWords] at h ⊢
    split_ifs at h ⊢ with hd
    · exact ih h
    · rw [Bool.and_eq_true] at h ⊢
      exact ⟨h.1, ih h.2⟩

/-- **Words may be cut anywhere**, if the hyphen that is left behind is taken off. -/
theorem joinsWords_rdropWhile (hne : cs ≠ []) (h : joinsWords false (cs ++ ds) = true) :
    joinsWords false (cs.rdropWhile (· == '-')) = true := by
  -- on the last character before the cut: it is of a word, or a hyphen with a word before it
  induction cs using List.reverseRecOn generalizing ds with
  | nil => exact absurd rfl hne
  | append_singleton cs c ih =>
    rw [List.append_assoc, List.singleton_append] at h
    by_cases hc : c = '-'
    · subst hc
      rw [joinsWords_append, Bool.and_eq_true] at h
      have hword : cs ≠ [] := by
        rintro rfl
        simp [joinsWords] at h
      have hwords : joinsWords false (cs ++ []) = true := by simpa using h.1
      rw [List.rdropWhile_concat_pos _ _ _ (by decide)]
      exact ih hword hwords
    · have hword : isWordChar c = true := (joinsWords_chars h c (by simp)).resolve_right hc
      rw [List.rdropWhile_concat_neg _ _ _ (by simpa using hc)]
      exact joinsWords_upTo hword h

theorem length_clip_le (cs : List Char) : (clip cs).length ≤ maxBytes := by
  unfold clip
  split_ifs with hle
  · exact hle
  · have hprefix : (cs.take maxBytes).rdropWhile (· == '-') <+: cs.take maxBytes :=
      List.rdropWhile_prefix _ _
    exact hprefix.length_le.trans (List.length_take_le maxBytes cs)

theorem joinsWords_clip (h : joinsWords false cs = true) : joinsWords false (clip cs) = true := by
  unfold clip
  split_ifs with hle
  · exact h
  · have hne : cs.take maxBytes ≠ [] := by
      have hlength : (cs.take maxBytes).length = maxBytes :=
        List.length_take_of_le (Nat.le_of_not_le hle)
      intro hnil
      rw [hnil] at hlength
      cases hlength
    exact joinsWords_rdropWhile hne (by rwa [List.take_append_drop])

/-! ## What a title suggests -/

/-- **A title with a letter or a digit suggests a slug.** -/
theorem check_ofTitle (h : ∃ c ∈ title.toList, c.isAlphanum = true) :
    check (ofTitle title) = .ok () :=
  check_ofList.mpr ⟨joinsWords_clip (joinsWords_hyphenated_title h false), length_clip_le _⟩

theorem ne_empty_of_check (h : check slug = .ok ()) : slug ≠ "" := by
  rintro rfl
  cases h

theorem ofTitle_eq_empty_iff : ofTitle title = "" ↔ ∀ c ∈ title.toList, c.isAlphanum = false := by
  constructor
  · intro hempty
    by_contra! h
    have hkept : ∃ c ∈ title.toList, c.isAlphanum = true := by simpa using h
    exact ne_empty_of_check (check_ofTitle hkept) hempty
  · intro h
    rw [ofTitle, hyphenated_eq_nil h]
    rfl

theorem ofTitle_ne_empty_iff : ofTitle title ≠ "" ↔ ∃ c ∈ title.toList, c.isAlphanum = true := by
  simp [ofTitle_eq_empty_iff]

theorem check_ofTitle_iff : check (ofTitle title) = .ok () ↔ ofTitle title ≠ "" :=
  ⟨ne_empty_of_check, fun h => check_ofTitle (ofTitle_ne_empty_iff.mp h)⟩

/-- **A slug is the slug of itself.** -/
theorem ofTitle_of_check (h : check slug = .ok ()) : ofTitle slug = slug := by
  have hform : joinsWords false slug.toList = true ∧ slug.toList.length ≤ maxBytes :=
    check_ofList.mp (String.ofList_toList.symm ▸ h)
  rw [ofTitle, hyphenated_title_of_joinsWords hform.1, clip, if_pos hform.2, String.ofList_toList]

end Slug

/-! ## The slug of a request -/

theorem checkedSlug_eq_ok {slug : String} :
    checkedSlug slug = .ok slug ↔ Slug.check slug = .ok () := by
  unfold checkedSlug
  split
  · next h => simp [h]
  · next h => simp [h]

theorem chosenSlug_of_name {name : String} : chosenSlug none name =
    if Slug.ofTitle name = ""
      then .error (.invalid "slug is required when name has no letters or digits")
    else .ok (Slug.ofTitle name) := by
  simp only [chosenSlug, String.isEmpty_iff]
  split_ifs with hempty
  · rfl
  · exact checkedSlug_eq_ok.mpr (Slug.check_ofTitle_iff.mpr hempty)

/-- **Titles and slugs fit together.** A title suggests nothing if it has no letter or digit, and a
slug otherwise. The texts that are left as they are are the slugs and the empty text, so that
nothing changes when a slug is suggested by what has been suggested. A request without a slug gets
the one that the name suggests, or is told that it needs one; a request with a slug gets that slug
if it is one, whatever the name. -/
theorem titles_slugs (text : String) :
    (Slug.ofTitle text = "" ↔ ∀ c ∈ text.toList, c.isAlphanum = false) ∧
      (Slug.ofTitle text ≠ "" ↔ Slug.check (Slug.ofTitle text) = .ok ()) ∧
      (Slug.ofTitle text = text ↔ text = "" ∨ Slug.check text = .ok ()) ∧
      Slug.ofTitle (Slug.ofTitle text) = Slug.ofTitle text ∧
      (chosenSlug none text = .ok (Slug.ofTitle text) ↔ ∃ c ∈ text.toList, c.isAlphanum = true) ∧
      (∀ e, chosenSlug none text = .error e ↔ (∀ c ∈ text.toList, c.isAlphanum = false) ∧
        e = .invalid "slug is required when name has no letters or digits") ∧
      ∀ slug, chosenSlug (some slug) text = .ok slug ↔ Slug.check slug = .ok () := by
  have hself : Slug.ofTitle text = text ↔ text = "" ∨ Slug.check text = .ok () := by
    constructor
    · intro h
      have hcheck : Slug.check (Slug.ofTitle text) = .ok () ↔ Slug.ofTitle text ≠ "" :=
        Slug.check_ofTitle_iff
      rw [h] at hcheck
      by_cases hempty : text = ""
      · exact .inl hempty
      · exact .inr (hcheck.mpr hempty)
    · rintro (rfl | h)
      · rfl
      · exact Slug.ofTitle_of_check h
  refine ⟨Slug.ofTitle_eq_empty_iff, Slug.check_ofTitle_iff.symm, hself, ?_, ?_, ?_,
    fun slug => checkedSlug_eq_ok⟩
  · by_cases hempty : Slug.ofTitle text = ""
    · rw [hempty]
      rfl
    · exact Slug.ofTitle_of_check (Slug.check_ofTitle_iff.mpr hempty)
  · rw [chosenSlug_of_name, ← Slug.ofTitle_ne_empty_iff]
    split_ifs with hempty <;> simp [hempty]
  · intro e
    rw [chosenSlug_of_name, ← Slug.ofTitle_eq_empty_iff]
    split_ifs with hempty <;> simp [hempty, eq_comm]

example : Slug.ofTitle "-- Ärger im 2. Akt!" = "rger-im-2-akt" := by decide

/-! ## The runs of titles

The slug of a title is written in one pass, with a hyphen kept back until something follows it. What
comes out can be said without the pass: the runs of letters and digits in lowercase, with hyphens
between them, cut to the size of a slug.

* `Slug.runs`, `Slug.joinedRuns`: the runs of letters and digits, and what they are joined to;
* `Slug.hyphenated_eq`: the pass writes the joined runs;
* `Slug.getLast?_of_joinsWords`, `Slug.clip_eq`: the cut leaves at most one hyphen behind;
* **`ofTitle_exact`**: the slug of a title by its runs.
-/

namespace Slug

variable {c : Char} {cs p : List Char} {ps : List (List Char)}

/-! ### Runs -/

/-- The longest runs of letters and digits, in their order. -/
def runs (cs : List Char) : List (List Char) := (cs.splitOnP fun c => !c.isAlphanum).filter (· ≠ [])

example : (runs "\u00C4rger im 2. Akt!".toList).map String.ofList = ["rger", "im", "2", "Akt"] := by
  decide

/-- The runs in lowercase, with a hyphen between each and the next. -/
def joinedRuns (cs : List Char) : List Char :=
  ['-'].intercalate ((runs cs).map (·.map Char.toLower))

/-- Runs in lowercase, each with a hyphen before it. -/
def furtherRuns (ps : List (List Char)) : List Char :=
  ((ps.filter (· ≠ [])).map fun p => '-' :: p.map Char.toLower).flatten

theorem furtherRuns_cons (p : List Char) (ps : List (List Char)) :
    furtherRuns (p :: ps) = (if p = [] then [] else '-' :: p.map Char.toLower) ++
      furtherRuns ps := by
  by_cases hp : p = [] <;> simp [furtherRuns, hp]

theorem splitOnP_cons_run (hc : c.isAlphanum = true)
    (h : cs.splitOnP (fun c => !c.isAlphanum) = p :: ps) :
    (c :: cs).splitOnP (fun c => !c.isAlphanum) = (c :: p) :: ps := by
  simp [List.splitOnP_cons_eq_if_modifyHead, hc, h]

theorem splitOnP_cons_gap (hc : c.isAlphanum = false) (cs : List Char) :
    (c :: cs).splitOnP (fun c => !c.isAlphanum) = [] :: cs.splitOnP fun c => !c.isAlphanum := by
  simp [List.splitOnP_cons_eq_if_modifyHead, hc]

/-- Behind a letter or digit the run goes on; behind something else a hyphen stands before what
follows. -/
theorem hyphenated_started (h : cs.splitOnP (fun c => !c.isAlphanum) = p :: ps) (pending : Bool) :
    hyphenated true pending cs = if pending then furtherRuns (p :: ps)
      else p.map Char.toLower ++ furtherRuns ps := by
  induction cs generalizing p ps pending with
  | nil =>
    cases h
    cases pending <;> rfl
  | cons c cs ih =>
    obtain ⟨p', ps', hrest⟩ :=
      List.exists_cons_of_ne_nil (List.splitOnP_ne_nil (fun c => !c.isAlphanum) cs)
    by_cases hc : c.isAlphanum = true
    · rw [splitOnP_cons_run hc hrest] at h
      cases h
      cases pending <;> simp [hyphenated, hc, ih hrest, furtherRuns_cons]
    · rw [splitOnP_cons_gap (by simpa using hc), hrest] at h
      cases h
      cases pending <;> simp [hyphenated, hc, ih hrest, furtherRuns_cons]

/-- **The pass writes the joined runs.** -/
theorem hyphenated_eq (pending : Bool) (cs : List Char) :
    hyphenated false pending cs = joinedRuns cs := by
  induction cs generalizing pending with
  | nil => rfl
  | cons c cs ih =>
    by_cases hc : c.isAlphanum = true
    · obtain ⟨p, ps, hrest⟩ :=
        List.exists_cons_of_ne_nil (List.splitOnP_ne_nil (fun c => !c.isAlphanum) cs)
      have hruns : runs (c :: cs) = (c :: p) :: ps.filter (· ≠ []) := by
        simp [runs, splitOnP_cons_run hc hrest]
      rw [joinedRuns, hruns, List.map_cons, intercalate_cons, hyphenated, if_pos hc, Bool.false_and]
      simp [hyphenated_started hrest, furtherRuns, Function.comp_def]
    · have hruns : runs (c :: cs) = runs cs := by
        simp [runs, splitOnP_cons_gap (by simpa using hc) cs]
      rw [joinedRuns, hruns, hyphenated, if_neg hc]
      exact ih true

/-! ### The cut -/

/-- The hyphen at the end is dropped, if there is one. -/
def dropHyphen (cs : List Char) : List Char := if cs.getLast? = some '-' then cs.dropLast else cs

theorem getLast?_of_joinsWords (h : joinsWords false cs = true) : cs.getLast? ≠ some '-' := by
  intro hlast
  obtain ⟨ds, rfl⟩ := List.getLast?_eq_some_iff.mp hlast
  rw [joinsWords_append] at h
  simp [joinsWords] at h

theorem rdropWhile_hyphen (h : cs.getLast? ≠ some '-') : cs.rdropWhile (· == '-') = cs := by
  rw [List.rdropWhile_eq_self_iff]
  intro hne hhyphen
  exact h (by rw [List.getLast?_eq_some_getLast hne, eq_of_beq hhyphen])

/-- **The cut leaves at most one hyphen behind**, and that is taken off. -/
theorem clip_eq (h : cs = [] ∨ joinsWords false cs = true) :
    clip cs = dropHyphen (cs.take maxBytes) := by
  rcases h with rfl | h
  · rfl
  unfold clip dropHyphen
  by_cases hle : cs.length ≤ maxBytes
  · rw [if_pos hle, List.take_of_length_le hle, if_neg (getLast?_of_joinsWords h)]
  · rw [if_neg hle]
    change (cs.take maxBytes).rdropWhile (· == '-') = _
    split_ifs with hlast
    · obtain ⟨ds, hkept⟩ := List.getLast?_eq_some_iff.mp hlast
      -- before a hyphen there is a word
      rw [← List.take_append_drop maxBytes cs, hkept, List.append_assoc, List.singleton_append,
        joinsWords_append, Bool.and_eq_true] at h
      rw [hkept, List.rdropWhile_concat_pos _ _ _ (by decide),
        rdropWhile_hyphen (getLast?_of_joinsWords h.1), List.dropLast_concat]
    · exact rdropWhile_hyphen hlast

theorem joinsWords_joinedRuns (cs : List Char) :
    joinedRuns cs = [] ∨ joinsWords false (joinedRuns cs) = true := by
  rw [← hyphenated_eq false]
  by_cases h : ∃ c ∈ cs, c.isAlphanum = true
  · exact .inr (joinsWords_hyphenated_title h false)
  · exact .inl (hyphenated_eq_nil (by simpa using h) false false)

end Slug

open Slug

/-- **The slug of a title** is made of the runs of letters and digits in it, in their order and in
lowercase. They are joined by single hyphens, the first 128 bytes of that are kept, and if a hyphen
is left at their end it is dropped. All the characters have one byte. Nothing else of the title
makes a difference. -/
theorem ofTitle_exact (title : String) :
    ofTitle title = String.ofList (dropHyphen ((joinedRuns title.toList).take 128)) ∧
      (∀ c ∈ joinedRuns title.toList, c.utf8Size = 1) ∧
      ∀ title' : String, (runs title'.toList).map (·.map Char.toLower) =
        (runs title.toList).map (·.map Char.toLower) →
        ofTitle title' = ofTitle title := by
  have hwords := joinsWords_joinedRuns title.toList
  refine ⟨?_, fun c hc => ?_, fun title' h => ?_⟩
  · rw [ofTitle, hyphenated_eq, clip_eq hwords]
    rfl
  · rcases hwords with hnil | hwords
    · rw [hnil] at hc
      cases hc
    · exact utf8Size_of_joinsWords hwords c hc
  · rw [ofTitle, ofTitle, hyphenated_eq, hyphenated_eq, joinedRuns, joinedRuns, h]

end Storyline
