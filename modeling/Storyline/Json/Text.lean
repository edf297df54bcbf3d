import Storyline.Json.Value

/-!
# Texts of JSON

A text is read from its head: numbers, quoted texts, and then values of any depth.
-/

/-! ## Magnitude of decimal numbers

Whether a decimal number lies beyond the range of binary floating point numbers of 64 bits, when
its digits are gathered up to 64 bits and multiplied by a rounded power of ten.

* `roundTo53`: the nearest number with 53 significant bits;
* `isExcessive`: the rounded product exceeds the range;
* `gather`: digits as a significand and an exponent.
-/

namespace Storyline.Json

/-- The number with 53 significant bits that is nearest, the even one of two. -/
def roundTo53 (n : Nat) : Nat :=
  let excess := n.log2 + 1 - 53
  let unit : Nat := 1 <<< excess
  let low := n / unit
  let rest := n % unit
  let up := 2 * rest > unit || (2 * rest == unit && low % 2 == 1)
  (if up then low + 1 else low) * unit

/-- `significand` times ten to the `exponent` is larger than every floating point number. -/
def isExcessive (significand : Nat) (exponent : Int) : Bool :=
  significand != 0 && 0 ≤ exponent &&
    (308 < exponent ||
      1 <<< 1024 - 1 <<< 970 ≤ roundTo53 significand * roundTo53 (Nat.pow 10 exponent.toNat))

/-- Digits gathered behind a significand: those before the first that no longer fits into 64 bits,
and how many there are. -/
def gather : (significand : Nat) → (taken : Nat) → List Char → Nat × Nat
  | significand, taken, [] => (significand, taken)
  | significand, taken, c :: cs =>
    let next := 10 * significand + (c.toNat - '0'.toNat)
    if next < UInt64.size then gather next (taken + 1) cs else (significand, taken)

/-- Whether a number with the given digits before and behind the point, times ten to the
`exponent`, lies beyond the range. An exponent is taken as it is up to 31 bits. -/
def exceedsRange (whole fraction : List Char) (exponent : Int) : Bool :=
  let (significand, taken) := gather 0 0 whole
  let dropped := whole.length - taken
  let (significand, taken) := gather significand 0 fraction
  isExcessive significand (dropped - taken + exponent)

example : exceedsRange "1".toList [] 308 = false := by decide +kernel
example : exceedsRange "2".toList [] 308 = true := by decide +kernel

/-! ## Numbers in a JSON text

* `number`: the draft of a number at the head of a text, and the text behind it.
-/

/-- A number that breaks off at `rest`. At the end of the text a reader waits for more, while one
that skips the number finds it badly written. -/
def unfinished (rest : List Char) : Draft × List Char :=
  if rest.isEmpty then (.broken .truncated .syntactic, []) else (.broken .syntactic .syntactic, [])

/-- The number of digits. -/
def digitsValue (cs : List Char) : Nat := Nat.ofDigitChars 10 cs 0

/-- The largest exponent that is told apart from larger ones. -/
def maxExponent : Nat := 0x7FFFFFFF

/-- A number with a fraction or an exponent. -/
def realDraft (text : List Char) (whole fraction : List Char) (exponent : Int) : Draft :=
  if exceedsRange whole fraction exponent then .excessive else .real (String.ofList text)

/-- A number without fraction and exponent. Zero with a sign is no integer. -/
def integerDraft (negative : Bool) (digits : List Char) : Draft :=
  if exceedsRange digits [] 0 then .excessive
  else if negative then
    if digitsValue digits = 0 then .real "-0" else .int (-(digitsValue digits : Int))
  else .int (digitsValue digits)

/-- The text without a sign at its head, and whether that is a minus. -/
def exponentSign : List Char → Bool × List Char
  | '-' :: cs => (true, cs)
  | '+' :: cs => (false, cs)
  | cs => (false, cs)

/-- The part of a number from its exponent on; `text` is what has been read, `fraction` the digits
behind the point, or nothing. -/
def numberTail (text : List Char) (negative : Bool) (whole : List Char)
    (fraction : Option (List Char)) : List Char → Draft × List Char
  | c :: cs =>
    if c = 'e' || c = 'E' then
      let (minus, rest) := exponentSign cs
      let digits := rest.takeWhile Char.isDigit
      let rest := rest.dropWhile Char.isDigit
      if digits.isEmpty then unfinished rest
      else
        let size := min (digitsValue digits) maxExponent
        let exponent : Int := if minus then -(size : Int) else size
        let sign := if minus then ['-'] else []
        (realDraft (text ++ 'e' :: sign ++ digits) whole (fraction.getD []) exponent, rest)
    else (plain, c :: cs)
  | [] => (plain, [])
where
  /-- The number without an exponent. -/
  plain : Draft :=
    match fraction with
    | none => integerDraft negative whole
    | some digits => realDraft text whole digits 0

/-- The digits of a number, in front of which a sign may have stood. -/
def numberBody (negative : Bool) (cs : List Char) : Draft × List Char :=
  let whole := cs.takeWhile Char.isDigit
  let rest := cs.dropWhile Char.isDigit
  let text := if negative then '-' :: whole else whole
  match whole with
  | [] => unfinished rest
  | '0' :: _ :: _ => (.broken .syntactic .syntactic, [])
  | _ =>
    match rest with
    | '.' :: rest =>
      let fraction := rest.takeWhile Char.isDigit
      let behind := rest.dropWhile Char.isDigit
      if fraction.isEmpty then unfinished behind
      else numberTail (text ++ '.' :: fraction) negative whole (some fraction) behind
    | rest => numberTail text negative whole none rest

/-- The number at the head of a text. -/
def number : List Char → Draft × List Char
  | '-' :: cs => numberBody true cs
  | cs => numberBody false cs

/-! ## Quoted texts in a JSON text

* `Piece`, `piece`: what stands at the head of a quoted text;
* `quoted`: the quoted text behind an opening quote.
-/

/-- The value of a digit of base 16. -/
def hexValue? (c : Char) : Option Nat :=
  if c.isDigit then some (c.toNat - '0'.toNat)
  else if 'a' ≤ c && c ≤ 'f' then some (c.toNat - 'a'.toNat + 10)
  else if 'A' ≤ c && c ≤ 'F' then some (c.toNat - 'A'.toNat + 10)
  else none

/-- Four digits of base 16, and the text behind them. A text with fewer than four bytes ends
early. -/
def hexUnit (cs : List Char) : Except Fault (Nat × List Char) :=
  match cs with
  | a :: b :: c :: d :: rest =>
    match hexValue? a, hexValue? b, hexValue? c, hexValue? d with
    | some a, some b, some c, some d => .ok (4096 * a + 256 * b + 16 * c + d, rest)
    | _, _, _, _ => .error .syntactic
  | _ => if cs.foldl (fun n c => n + c.utf8Size) 0 < 4 then .error .truncated else .error .syntactic

/-- What a quoted text goes on with. -/
inductive Piece
  | close (rest : List Char)
  | char (c : Char) (rest : List Char)
  /-- Half of a surrogate pair without the other half. -/
  | half (rest : List Char)
  | fault (fault : Fault)

/-- A second half of a surrogate pair. -/
def isLowHalf (n : Nat) : Bool := 0xDC00 ≤ n && n ≤ 0xDFFF

/-- A first half of a surrogate pair. -/
def isHighHalf (n : Nat) : Bool := 0xD800 ≤ n && n ≤ 0xDBFF

/-- What follows the first half `high` of a surrogate pair, which should be the second half. -/
def afterHighHalf (high : Nat) (cs : List Char) : Piece :=
  match cs with
  | [] | ['\\'] => .fault .truncated
  | '\\' :: 'u' :: rest =>
    match hexUnit rest with
    | .error fault => .fault fault
    | .ok (low, rest) =>
      if isLowHalf low then
        .char (Char.ofNat (0x10000 + 0x400 * (high - 0xD800) + (low - 0xDC00))) rest
      else .half cs
  | _ => .half cs

/-- The character that a backslash and a letter stand for. -/
def escaped? : Char → Option Char
  | '"' => some '"'
  | '\\' => some '\\'
  | '/' => some '/'
  | 'b' => some '\x08'
  | 'f' => some '\x0c'
  | 'n' => some '\n'
  | 'r' => some '\r'
  | 't' => some '\t'
  | _ => none

/-- What stands at the head of the inside of a quoted text. -/
def piece : List Char → Piece
  | [] => .fault .truncated
  | '"' :: rest => .close rest
  | '\\' :: [] => .fault .truncated
  | '\\' :: 'u' :: rest =>
    match hexUnit rest with
    | .error fault => .fault fault
    | .ok (unit, rest) =>
      if isLowHalf unit then .half rest
      else if isHighHalf unit then afterHighHalf unit rest
      else .char (Char.ofNat unit) rest
  | '\\' :: c :: rest =>
    match escaped? c with
    | some c => .char c rest
    | none => .fault .syntactic
  | c :: rest => if c.toNat < 0x20 then .fault .syntactic else .char c rest

/-- The inside of a quoted text, with the fault that a reader meets and the one met by skipping. -/
inductive Quoted
  /-- The characters, or nothing if there is half of a surrogate pair among them. -/
  | closed (text : Option String) (rest : List Char)
  | broken (read skip : Fault)

/-- Read on behind the characters `text`, which are kept in reverse. -/
def quotedFrom : (fuel : Nat) → (text : Option (List Char)) → List Char → Quoted
  | 0, _, _ => .broken .truncated .truncated
  | fuel + 1, text, cs =>
    match piece cs with
    | .close rest => .closed (text.map fun cs => String.ofList cs.reverse) rest
    | .char c rest => quotedFrom fuel (text.map (c :: ·)) rest
    | .half rest => quotedFrom fuel none rest
    | .fault fault =>
      match text with
      | some _ => .broken fault fault
      | none => .broken .syntactic fault

/-- The quoted text whose opening quote stands in front of `cs`. -/
def quoted (cs : List Char) : Quoted := quotedFrom (cs.length + 1) (some []) cs

/-! ## JSON texts

* `Draft.ofText`: the draft of the value at the head of a text, and the text behind it;
* `decode`: what a reader of drafts makes of a whole text;
* `ofText`: the value that a text holds.
-/

/-- The characters that may stand between the parts of a text. -/
def isSpace (c : Char) : Bool := c == ' ' || c == '\n' || c == '\t' || c == '\r'

/-- The text from its first character that is no space. -/
def skipSpace (cs : List Char) : List Char := cs.dropWhile isSpace

/-- The rest of a word that stands for a value. -/
def word (value : Draft) : (letters : List Char) → List Char → Draft × List Char
  | [], cs => (value, cs)
  | _ :: _, [] => (.broken .truncated .truncated, [])
  | l :: ls, c :: cs => if c = l then word value ls cs else (.broken .syntactic .syntactic, [])

namespace Draft

mutual

/-- The value at the head of a text. -/
def ofChars : (fuel : Nat) → List Char → Draft × List Char
  | 0, _ => (.broken .truncated .truncated, [])
  | fuel + 1, cs =>
    match skipSpace cs with
    | [] => (.broken .truncated .truncated, [])
    | '"' :: rest =>
      match quoted rest with
      | .closed text rest => (.str text, rest)
      | .broken read skip => (.broken read skip, [])
    | '[' :: rest =>
      match skipSpace rest with
      | [] => (.arr (.broken .truncated), [])
      | ']' :: rest => (.arr .nil, rest)
      | rest =>
        let (item, rest) := ofChars fuel rest
        let (items, rest) := Items.ofChars fuel rest
        (.arr (.cons item items), rest)
    | '{' :: rest =>
      match skipSpace rest with
      | '}' :: rest => (.obj .nil, rest)
      | rest =>
        let (members, rest) := Members.ofChars fuel rest
        (.obj members, rest)
    | 'n' :: rest => word .null ['u', 'l', 'l'] rest
    | 't' :: rest => word (.bool true) ['r', 'u', 'e'] rest
    | 'f' :: rest => word (.bool false) ['a', 'l', 's', 'e'] rest
    | c :: rest =>
      if c = '-' || c.isDigit then number (c :: rest) else (.broken .syntactic .syntactic, [])

/-- The items of an array behind one of them. A comma announces another. -/
def Items.ofChars : (fuel : Nat) → List Char → Items × List Char
  | 0, _ => (.broken .truncated, [])
  | fuel + 1, cs =>
    match skipSpace cs with
    | [] => (.broken .truncated, [])
    | ']' :: rest => (.nil, rest)
    | ',' :: rest =>
      let (item, rest) := ofChars fuel rest
      let (items, rest) := Items.ofChars fuel rest
      (.cons item items, rest)
    | _ => (.broken .syntactic, [])

/-- The members of an object from the key of one of them on. -/
def Members.ofChars : (fuel : Nat) → List Char → Members × List Char
  | 0, _ => (.broken .truncated .truncated, [])
  | fuel + 1, cs =>
    match skipSpace cs with
    | [] => (.broken .truncated .truncated, [])
    | '"' :: rest =>
      match quoted rest with
      | .broken read skip => (.broken read skip, [])
      | .closed key rest =>
        let (value, rest) :=
          match skipSpace rest with
          | [] => (.broken .truncated .truncated, [])
          | ':' :: rest => ofChars fuel rest
          | _ => (.broken .syntactic .syntactic, [])
        match skipSpace rest with
        | [] => (.cons key value (.broken .truncated .truncated), [])
        | '}' :: rest => (.cons key value .nil, rest)
        | ',' :: rest =>
          let (members, rest) := Members.ofChars fuel rest
          (.cons key value members, rest)
        | _ => (.cons key value (.broken .syntactic .syntactic), [])
    | _ => (.broken .syntactic .syntactic, [])

end

/-- The value at the head of a text, and the text behind it. Each step leaves a shorter text to
the steps below it. -/
def ofText (text : String) : Draft × List Char :=
  ofChars (text.toList.length + 1) text.toList

end Draft

/-- What a reader makes of a text: the first problem from the left decides. Behind the value only
space may follow. -/
def decode {α : Type} (read : Draft → Except Fault α) (text : String) : Except Fault α :=
  let (draft, rest) := Draft.ofText text
  match read draft with
  | .error fault => .error fault
  | .ok a => if (skipSpace rest).isEmpty then .ok a else .error .syntactic

/-- The value that a text holds. -/
def ofText (text : String) : Except Fault Json := decode Draft.value text

end Storyline.Json
