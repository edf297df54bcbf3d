/-!
# Texts

Texts as lists of characters: the blank space at their ends, their pieces, and the numerals among
them.
-/

/-! ## Blank space

The characters that Unicode counts as white space, and text with the blank space at its two ends
removed.

* `isBlank`: one of the 25 characters with the property `White_Space`;
* `trim`, `trimmed`: a text without its leading and trailing blanks.
-/

namespace Storyline.Text

/-- A character with the Unicode property `White_Space`. -/
def isBlank (c : Char) : Bool :=
  (0x09 ≤ c.toNat && c.toNat ≤ 0x0D) || c.toNat == 0x20 || c.toNat == 0x85 || c.toNat == 0xA0 ||
    c.toNat == 0x1680 || (0x2000 ≤ c.toNat && c.toNat ≤ 0x200A) || c.toNat == 0x2028 ||
    c.toNat == 0x2029 || c.toNat == 0x202F || c.toNat == 0x205F || c.toNat == 0x3000

/-- The characters without the blanks at either end. -/
def trim (cs : List Char) : List Char :=
  ((cs.dropWhile isBlank).reverse.dropWhile isBlank).reverse

/-- The text without the blanks at either end. -/
def trimmed (s : String) : String := String.ofList (trim s.toList)

example : trimmed " \u2003beat one\u3000" = "beat one" := by decide
example : trimmed "\u200bbeat" = "\u200bbeat" := by decide

/-! ## Pieces of a text

* `pieces`: a text cut at every occurrence of a character.
-/

/-- The pieces between the occurrences of `sep`, one more than there are of these. -/
def pieces (sep : Char) : List Char → List (List Char)
  | [] => [[]]
  | c :: cs =>
    if c = sep then [] :: pieces sep cs
    else
      match pieces sep cs with
      | [] => [[c]]
      | p :: ps => (c :: p) :: ps

example : pieces '/' "/a//b".toList = [[], ['a'], [], ['b']] := by decide

end Storyline.Text

/-! ## Decimal numerals

Numbers written with the digits `0` to `9`, read up to a largest value.

* `read`: a numeral with at most one leading `+`; the first problem from the left decides;
* `readSigned`: a numeral that may also carry a leading `-`;
* `write`: the digits of a number, without superfluous zeros.
-/

namespace Storyline.Numeral

/-- Why a text is no numeral. -/
inductive Fault
  | empty
  | invalidDigit
  | tooLarge
  deriving DecidableEq, Repr

/-- The fault in words. -/
def Fault.message : Fault → String
  | .empty => "cannot parse integer from empty string"
  | .invalidDigit => "invalid digit found in string"
  | .tooLarge => "number too large to fit in target type"

/-- The value of a digit. -/
def digitValue (c : Char) : Nat := c.toNat - '0'.toNat

/-- Read digits behind a number `n` that has been read already. A character is first asked whether
it is a digit, then whether the number still fits. -/
def readFrom (max : Nat) : Nat → List Char → Except Fault Nat
  | n, [] => .ok n
  | n, c :: cs =>
    if c.isDigit then
      if 10 * n + digitValue c ≤ max then readFrom max (10 * n + digitValue c) cs
      else .error .tooLarge
    else .error .invalidDigit

/-- One digit or more. -/
def readDigits (max : Nat) : List Char → Except Fault Nat
  | [] => .error .invalidDigit
  | c :: cs => readFrom max 0 (c :: cs)

/-- A numeral of a number up to `max`; one `+` may stand before the digits. -/
def read (max : Nat) : List Char → Except Fault Nat
  | [] => .error .empty
  | '+' :: cs => readDigits max cs
  | c :: cs => readDigits max (c :: cs)

/-- A numeral of an integer from `-low` to `high`; one sign may stand before the digits. -/
def readSigned? (low high : Nat) : List Char → Option Int
  | '-' :: cs => (readDigits low cs).toOption.map fun n => -(n : Int)
  | cs => (read high cs).toOption.map Int.ofNat

/-- A numeral of a number of 64 bits with a sign. -/
def readInt64? (cs : List Char) : Option Int := readSigned? 0x8000000000000000 0x7FFFFFFFFFFFFFFF cs

/-- The digits of a number. -/
def write (n : Nat) : List Char := Nat.toDigits 10 n

example : read 4294967295 "+4294967295".toList = .ok 4294967295 := by rfl
example : read 4294967295 "4294967296".toList = .error .tooLarge := by rfl
example : read 4294967295 "999999999x".toList = .error .invalidDigit := by rfl
example : readInt64? "-9223372036854775808".toList = some (-9223372036854775808) := by rfl

end Storyline.Numeral
