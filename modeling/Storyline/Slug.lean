import Storyline.Text

/-!
# Slugs

A slug names an entity in an address: words of lowercase letters and digits, joined by single
hyphens, 128 bytes at most.

* `Slug.check`: whether a text is a slug, and if not, why;
* `Slug.ofTitle`: the slug that a title suggests.
-/

namespace Storyline.Slug

/-- The most bytes of a slug. -/
def maxBytes : Nat := 128

/-- The form of a slug as a regular expression. -/
def form : String := "^[a-z0-9]+(?:-[a-z0-9]+)*$"

/-- Why a text is no slug. -/
inductive Fault
  | empty
  | tooLong (length : Nat)
  | malformed (slug : String)
  deriving DecidableEq, Repr

/-- The fault in words. -/
def Fault.message : Fault → String
  | .empty => "slug must not be empty"
  | .tooLong length => s!"slug exceeds maximum length of {maxBytes} characters (got {length})"
  | .malformed slug =>
    s!"slug '{slug}' must contain only lowercase letters, digits and single hyphens"

/-- The characters of a slug's words. -/
def isWordChar (c : Char) : Bool := c.isLower || c.isDigit

/-- Words joined by single hyphens; `inWord` tells that the character before was part of a word. -/
def joinsWords : (inWord : Bool) → List Char → Bool
  | inWord, [] => inWord
  | inWord, c :: cs =>
    if isWordChar c then joinsWords true cs else c == '-' && inWord && joinsWords false cs

/-- Whether a text is a slug. It is asked first whether it is empty, then for its length in bytes,
then for its characters. -/
def check (slug : String) : Except Fault Unit :=
  if slug.isEmpty then .error .empty
  else if slug.utf8ByteSize > maxBytes then .error (.tooLong slug.utf8ByteSize)
  else if joinsWords false slug.toList then .ok ()
  else .error (.malformed slug)

/-! ## The slug of a title -/

/-- The ASCII letters and digits in lowercase, with one hyphen wherever other characters stand
between two of them. `started` tells that one has been kept, `pending` that something has been
left out since. -/
def hyphenated : (started pending : Bool) → List Char → List Char
  | _, _, [] => []
  | started, pending, c :: cs =>
    if c.isAlphanum then
      if started && pending then '-' :: c.toLower :: hyphenated true false cs
      else c.toLower :: hyphenated true false cs
    else hyphenated started true cs

/-- Text cut after 128 characters; a cut text does not end in hyphens. -/
def clip (cs : List Char) : List Char :=
  if cs.length ≤ maxBytes then cs
  else ((cs.take maxBytes).reverse.dropWhile (· == '-')).reverse

/-- The slug of a title; empty if the title has no ASCII letter or digit. -/
def ofTitle (title : String) : String := String.ofList (clip (hyphenated false false title.toList))

example : ofTitle "Save the Cat (15 beats)" = "save-the-cat-15-beats" := by decide

/-! ## Numbered variants

When a slug is taken, the entity is kept under a variant of it: the base slug, a hyphen and a
number.

* `Slug.variant`: the variant with a given number;
* `Slug.suffix?`: the digits by which a slug is a variant of a base;
* `Slug.number`: the number of a stored variant;
* `Slug.pattern`: the regular expression that the variants of a base match.
-/

/-- The variant of `base` with number `n`. -/
def variant (base : String) (n : UInt32) : String :=
  String.ofList (base.toList ++ '-' :: Numeral.write n.toNat)

/-- What follows `base` and a hyphen in `slug`. -/
def afterBase? (base slug : String) : Option (List Char) :=
  match base.toList.isPrefixOf? slug.toList with
  | some ('-' :: rest) => some rest
  | _ => none

/-- The digits by which `slug` is a variant of `base`: one or more, and nothing else. -/
def suffix? (base slug : String) : Option (List Char) :=
  (afterBase? base slug).filter fun ds => !ds.isEmpty && ds.all Char.isDigit

/-- The largest number that a variant can carry. -/
def maxNumber : Nat := UInt32.size - 1

/-- The number of a stored variant. A slug of another form is read as a whole. -/
def number (base slug : String) : Except Numeral.Fault UInt32 :=
  (Numeral.read maxNumber ((afterBase? base slug).getD slug.toList)).map UInt32.ofNat

/-- The number that digits stand for. -/
def suffixValue (ds : List Char) : Nat := Nat.ofDigitChars 10 ds 0

/-! ### The pattern of the variants -/

/-- The characters with a meaning of their own in a regular expression. -/
def metaChars : List Char :=
  ['\\', '.', '+', '*', '?', '(', ')', '|', '[', ']', '{', '}', '^', '$', '#', '&', '-', '~']

/-- The text with a backslash before each character of special meaning. -/
def escape (cs : List Char) : List Char :=
  cs.flatMap fun c => if metaChars.contains c then ['\\', c] else [c]

/-- The regular expression of the variants of `base`; its group holds the number. -/
def pattern (base : String) : String :=
  String.ofList ('^' :: escape base.toList ++ "-([0-9]+)$".toList)

example : variant "hero" 7 = "hero-7" := by decide
example : number "hero" "hero-07" = .ok 7 := by rfl
example : number "hero" "villain" = .error .invalidDigit := by rfl
example : suffix? "act" "act-1-2" = none := by decide

end Storyline.Slug
