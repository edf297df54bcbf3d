import Mathlib.Data.List.Basic

/-!
# Regular expressions

The part of the language of regular expressions that the patterns of slugs are written in:
characters, sets of ranges, the two ends of a text, repetition and groups. A text outside this part
is not read at all.

* `Expression`, with `Expression.tokens` and `Expression.read?` for the text that it is written as;
* `Expression.tokens_escaped`, `Expression.tokens_char`, `Expression.ofTokens?_chars`: characters
  that are read as themselves;
* `Expression.Matches`: what an expression stands for at a place of a text, and what its groups
  capture there;
* `Expression.Denotes`: an expression that stands for the same words at every place, with
  `Expression.Denotes.seq`, `Expression.Denotes.star` and `Expression.denotes_plus_set`;
* `Expression.Finds`: an expression is found in a text, with `Expression.AtStart.finds` for those
  that are held at both of its ends.
-/

namespace Storyline

/-- A regular expression. -/
inductive Expression
  | empty
  | char (c : Char)
  /-- A character between the ends of one of the ranges. -/
  | set (ranges : List (Char × Char))
  /-- The start of the text. -/
  | start
  /-- The end of the text. -/
  | stop
  | seq (e e' : Expression)
  | star (e : Expression)
  /-- What the expression stands for is captured. -/
  | group (e : Expression)
  deriving DecidableEq, Repr

namespace Expression

/-- The expression once or more often. -/
def plus (e : Expression) : Expression := e.seq e.star

/-- The characters one after the other, behind an expression. -/
def chars (e : Expression) (cs : List Char) : Expression := cs.foldl (fun e c => e.seq (.char c)) e

/-! ## Reading -/

/-- What the text of an expression is made of. -/
inductive Token
  | item (e : Expression)
  | star
  | plus
  | opening (captures : Bool)
  | closing
  deriving DecidableEq, Repr

/-- The characters that do not stand for themselves, sets apart. -/
def operators : List Char := ['\\', '.', '+', '*', '?', '(', ')', '|', '[', ']', '{', '}', '^', '$']

/-- What a character means that stands alone. -/
def token? : Char → Option Token
  | '^' => some (.item .start)
  | '$' => some (.item .stop)
  | '*' => some .star
  | '+' => some .plus
  | '(' => some (.opening true)
  | ')' => some .closing
  | c => if operators.contains c then none else some (.item (.char c))

/-- The tokens of a text; inside a set, with its ranges so far. A backslash takes the meaning from
the character behind it, unless that is a letter or digit, which would get one. -/
def tokens : (ranges : Option (List (Char × Char))) → List Char → Option (List Token)
  | none, [] => some []
  | none, '\\' :: c :: cs =>
    if c.isAlphanum then none else (tokens none cs).map (.item (.char c) :: ·)
  | none, '(' :: '?' :: ':' :: cs => (tokens none cs).map (.opening false :: ·)
  | none, '[' :: cs => tokens (some []) cs
  | none, c :: cs => (token? c).bind fun token => (tokens none cs).map (token :: ·)
  | some ranges, ']' :: cs => (tokens none cs).map (.item (.set ranges) :: ·)
  | some ranges, low :: '-' :: high :: cs =>
    if low.isAlphanum && high.isAlphanum then tokens (some (ranges ++ [(low, high)])) cs else none
  | some _, _ => none

/-- The expression of tokens behind the expression `e`, inside groups that are still open, each with
what stands before it. -/
def ofTokens? :
    (outer : List (Bool × Expression)) → (e : Expression) → List Token → Option Expression
  | [], e, [] => some e
  | outer, e, .item e' :: ts => ofTokens? outer (e.seq e') ts
  | outer, .seq e e', .star :: ts => ofTokens? outer (e.seq e'.star) ts
  | outer, .seq e e', .plus :: ts => ofTokens? outer (e.seq e'.plus) ts
  | outer, e, .opening captures :: ts => ofTokens? ((captures, e) :: outer) .empty ts
  | (captures, e') :: outer, e, .closing :: ts =>
    ofTokens? outer (e'.seq (if captures then e.group else e)) ts
  | _, _, _ => none

/-- The expression that a text is read as. -/
def read? (text : List Char) : Option Expression := (tokens none text).bind (ofTokens? [] .empty)

theorem tokens_escaped {c : Char} (hc : c.isAlphanum = false) (cs : List Char) :
    tokens none ('\\' :: c :: cs) = (tokens none cs).map (.item (.char c) :: ·) := by
  simp [tokens, hc]

theorem tokens_char {c : Char} (hc : c ∉ operators) (cs : List Char) :
    tokens none (c :: cs) = (tokens none cs).map (.item (.char c) :: ·) := by
  have htoken : token? c = some (.item (.char c)) := by
    unfold token?
    split <;> simp_all [operators]
  rw [tokens, htoken, Option.bind_some]
  all_goals
    simp only [operators, List.mem_cons, not_or] at hc
    grind

theorem ofTokens?_chars (outer : List (Bool × Expression)) (e : Expression) (cs : List Char)
    (ts : List Token) :
    ofTokens? outer e (cs.map (fun c => .item (.char c)) ++ ts) =
      ofTokens? outer (e.chars cs) ts := by
  induction cs generalizing e with
  | nil => rfl
  | cons c cs ih =>
    rw [List.map_cons, List.cons_append, ofTokens?]
    exact ih (e.seq (.char c))

/-! ## Meaning -/

/-- The character is in a set. -/
def InRanges (ranges : List (Char × Char)) (c : Char) : Prop :=
  ∃ range ∈ ranges, range.1 ≤ c ∧ c ≤ range.2

/-- The expression stands for `word` between what comes before and after it in a text. Its groups
capture texts, in the order in which they end. -/
inductive Matches :
    Expression → (before word after : List Char) → (captured : List (List Char)) → Prop
  | empty {l r : List Char} : Matches .empty l [] r []
  | char {c : Char} {l r : List Char} : Matches (.char c) l [c] r []
  | set {ranges : List (Char × Char)} {c : Char} {l r : List Char} (h : InRanges ranges c) :
      Matches (.set ranges) l [c] r []
  | start {r : List Char} : Matches .start [] [] r []
  | stop {l : List Char} : Matches .stop l [] [] []
  | seq {e e' : Expression} {l w w' r : List Char} {gs gs' : List (List Char)}
      (h : Matches e l w (w' ++ r) gs) (h' : Matches e' (l ++ w) w' r gs') :
      Matches (.seq e e') l (w ++ w') r (gs ++ gs')
  | starNil {e : Expression} {l r : List Char} : Matches (.star e) l [] r []
  | starCons {e : Expression} {l w w' r : List Char} {gs gs' : List (List Char)}
      (h : Matches e l w (w' ++ r) gs) (h' : Matches (.star e) (l ++ w) w' r gs') :
      Matches (.star e) l (w ++ w') r (gs ++ gs')
  | group {e : Expression} {l w r : List Char} {gs : List (List Char)} (h : Matches e l w r gs) :
      Matches (.group e) l w r (gs ++ [w])

/-- The expression is found in a text, with what its groups have captured. -/
def Finds (e : Expression) (text : List Char) (captured : List (List Char)) : Prop :=
  ∃ before word after, text = before ++ word ++ after ∧ e.Matches before word after captured

section Matches

variable {e e' : Expression} {c : Char} {ranges : List (Char × Char)} {cs l w r : List Char}
  {gs : List (List Char)} {P P' : List Char → Prop}

theorem matches_empty : Matches .empty l w r gs ↔ w = [] ∧ gs = [] := by
  constructor
  · rintro ⟨⟩
    exact ⟨rfl, rfl⟩
  · rintro ⟨rfl, rfl⟩
    exact .empty

theorem matches_char : Matches (.char c) l w r gs ↔ w = [c] ∧ gs = [] := by
  constructor
  · rintro ⟨⟩
    exact ⟨rfl, rfl⟩
  · rintro ⟨rfl, rfl⟩
    exact .char

theorem matches_set :
    Matches (.set ranges) l w r gs ↔ (∃ c, InRanges ranges c ∧ w = [c]) ∧ gs = [] := by
  constructor
  · rintro ⟨⟩
    exact ⟨⟨_, ‹_›, rfl⟩, rfl⟩
  · rintro ⟨⟨c, hc, rfl⟩, rfl⟩
    exact .set hc

theorem matches_start : Matches .start l w r gs ↔ l = [] ∧ w = [] ∧ gs = [] := by
  constructor
  · rintro ⟨⟩
    exact ⟨rfl, rfl, rfl⟩
  · rintro ⟨rfl, rfl, rfl⟩
    exact .start

theorem matches_stop : Matches .stop l w r gs ↔ r = [] ∧ w = [] ∧ gs = [] := by
  constructor
  · rintro ⟨⟩
    exact ⟨rfl, rfl, rfl⟩
  · rintro ⟨rfl, rfl, rfl⟩
    exact .stop

theorem matches_seq : Matches (.seq e e') l w r gs ↔ ∃ u v gs₁ gs₂, w = u ++ v ∧ gs = gs₁ ++ gs₂ ∧
    e.Matches l u (v ++ r) gs₁ ∧ e'.Matches (l ++ u) v r gs₂ := by
  constructor
  · rintro ⟨⟩
    exact ⟨_, _, _, _, rfl, rfl, ‹_›, ‹_›⟩
  · rintro ⟨u, v, gs₁, gs₂, rfl, rfl, h, h'⟩
    exact .seq h h'

theorem matches_group :
    Matches (.group e) l w r gs ↔ ∃ gs', gs = gs' ++ [w] ∧ e.Matches l w r gs' := by
  constructor
  · rintro ⟨⟩
    exact ⟨_, rfl, ‹_›⟩
  · rintro ⟨gs', rfl, h⟩
    exact .group h

theorem matches_chars :
    (e.chars cs).Matches l w r gs ↔ ∃ u, w = u ++ cs ∧ e.Matches l u (cs ++ r) gs := by
  induction cs generalizing e w r with
  | nil => simp [chars]
  | cons c cs ih =>
    change ((e.seq (.char c)).chars cs).Matches l w r gs ↔ _
    simp only [ih, matches_seq, matches_char]
    constructor
    · rintro ⟨_, rfl, u, _, gs, _, rfl, rfl, h, rfl, rfl⟩
      exact ⟨u, by simp, by simpa using h⟩
    · rintro ⟨u, rfl, h⟩
      exact ⟨u ++ [c], by simp, u, [c], gs, [], rfl, by simp, by simpa using h, rfl, rfl⟩

/-! ## Words -/

/-- Wherever it is, the expression stands for the words with `P`, and captures nothing. -/
def Denotes (e : Expression) (P : List Char → Prop) : Prop :=
  ∀ ⦃l w r gs⦄, e.Matches l w r gs ↔ P w ∧ gs = []

theorem Denotes.seq (he : e.Denotes P) (he' : e'.Denotes P') :
    (e.seq e').Denotes fun w => ∃ u v, w = u ++ v ∧ P u ∧ P' v := by
  intro l w r gs
  rw [matches_seq]
  constructor
  · rintro ⟨u, v, gs₁, gs₂, rfl, rfl, h, h'⟩
    obtain ⟨hu, rfl⟩ := he.mp h
    obtain ⟨hv, rfl⟩ := he'.mp h'
    exact ⟨⟨u, v, rfl, hu, hv⟩, rfl⟩
  · rintro ⟨⟨u, v, rfl, hu, hv⟩, rfl⟩
    exact ⟨u, v, [], [], rfl, rfl, he.mpr ⟨hu, rfl⟩, he'.mpr ⟨hv, rfl⟩⟩

theorem Denotes.first (he : e.Denotes P) : (Expression.empty.seq e).Denotes P := by
  intro l w r gs
  rw [matches_seq]
  constructor
  · rintro ⟨u, v, _, gs, rfl, rfl, h, h'⟩
    obtain ⟨rfl, rfl⟩ := matches_empty.mp h
    exact he.mp h'
  · intro h
    exact ⟨[], w, [], gs, rfl, rfl, .empty, he.mpr h⟩

/-- **A repetition** stands for any number of words one after the other. -/
theorem Denotes.star (he : e.Denotes P) :
    e.star.Denotes fun w => ∃ ws : List (List Char), w = ws.flatten ∧ ∀ v ∈ ws, P v := by
  intro l w r gs
  constructor
  · intro h
    -- on the rounds of the repetition
    generalize hstar : e.star = e' at h
    induction h with
    | starNil => exact ⟨⟨[], by simp⟩, rfl⟩
    | @starCons _ l w _ r _ _ h _ _ ih =>
      cases hstar
      obtain ⟨hw, rfl⟩ := he.mp h
      obtain ⟨⟨ws, rfl, hws⟩, rfl⟩ := ih rfl
      exact ⟨⟨w :: ws, rfl, List.forall_mem_cons.mpr ⟨hw, hws⟩⟩, rfl⟩
    | _ => cases hstar
  · rintro ⟨⟨ws, rfl, hws⟩, rfl⟩
    induction ws generalizing l with
    | nil => exact .starNil
    | cons w ws ih =>
      obtain ⟨hw, hws⟩ := List.forall_mem_cons.mp hws
      exact .starCons (he.mpr ⟨hw, rfl⟩) (ih hws)

theorem denotes_plus_set :
    (plus (.set ranges)).Denotes fun w => w ≠ [] ∧ ∀ c ∈ w, InRanges ranges c := by
  have hset : (Expression.set ranges).Denotes fun w => ∃ c, InRanges ranges c ∧ w = [c] :=
    fun _ _ _ _ => matches_set
  intro l w r gs
  rw [plus, Denotes.seq hset (Denotes.star hset)]
  refine and_congr_left fun _ => ⟨?_, ?_⟩
  · rintro ⟨u, v, rfl, ⟨c, hc, rfl⟩, ws, rfl, hws⟩
    refine ⟨by simp, List.forall_mem_cons.mpr ⟨hc, fun d hd => ?_⟩⟩
    obtain ⟨v, hv, hd⟩ := List.mem_flatten.mp hd
    obtain ⟨d', hd', rfl⟩ := hws v hv
    rwa [List.mem_singleton.mp hd]
  · rintro ⟨hne, hw⟩
    obtain ⟨c, w, rfl⟩ := List.exists_cons_of_ne_nil hne
    obtain ⟨hc, hw⟩ := List.forall_mem_cons.mp hw
    refine ⟨[c], w, rfl, ⟨c, hc, rfl⟩, w.map fun d => [d], (List.flatMap_singleton' w).symm,
      fun v hv => ?_⟩
    obtain ⟨d, hd, rfl⟩ := List.mem_map.mp hv
    exact ⟨d, hw d hd, rfl⟩

/-! ## Whole texts -/

/-- The expression is found at the start of a text only. -/
def AtStart (e : Expression) : Prop := ∀ ⦃l w r gs⦄, e.Matches l w r gs → l = []

/-- The beginning of a pattern that is held at the start. -/
def fromStart : Expression := .seq .empty .start

theorem matches_fromStart : fromStart.Matches l w r gs ↔ l = [] ∧ w = [] ∧ gs = [] := by
  simp only [fromStart, matches_seq, matches_empty, matches_start]
  constructor
  · rintro ⟨u, v, _, _, rfl, rfl, ⟨rfl, rfl⟩, hl, rfl, rfl⟩
    exact ⟨by simpa using hl, rfl, rfl⟩
  · rintro ⟨rfl, rfl, rfl⟩
    exact ⟨[], [], [], [], rfl, rfl, ⟨rfl, rfl⟩, rfl, rfl, rfl⟩

theorem atStart_fromStart : AtStart fromStart := fun _ _ _ _ h => (matches_fromStart.mp h).1

theorem AtStart.seq (he : AtStart e) (e' : Expression) : AtStart (e.seq e') := by
  intro l w r gs h
  obtain ⟨_, _, _, _, -, -, h, -⟩ := matches_seq.mp h
  exact he h

theorem AtStart.chars (he : AtStart e) (cs : List Char) : AtStart (e.chars cs) := by
  intro l w r gs h
  obtain ⟨_, -, h⟩ := matches_chars.mp h
  exact he h

/-- **An expression that is held at both ends** is found in the texts that it stands for as a
whole. -/
theorem AtStart.finds (he : AtStart e) (text : List Char) :
    (e.seq .stop).Finds text gs ↔ e.Matches [] text [] gs := by
  constructor
  · rintro ⟨l, _, r, rfl, h⟩
    obtain ⟨w, v, gs₁, gs₂, rfl, rfl, hword, hstop⟩ := matches_seq.mp h
    obtain ⟨rfl, rfl, rfl⟩ := matches_stop.mp hstop
    obtain rfl := he hword
    simpa using hword
  · intro h
    refine ⟨[], text, [], by simp, matches_seq.mpr ⟨text, [], gs, [], ?_⟩⟩
    simpa [matches_stop] using h

end Matches

end Expression

end Storyline
