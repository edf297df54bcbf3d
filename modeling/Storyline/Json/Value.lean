/-!
# Values of JSON

Values, what is left of a text that breaks off, and the records that are read from either.
-/

/-! ## JSON values

* `Json`: a value; whole numbers are kept apart from those written with a fraction or an exponent;
* `Json.render`: its text, without any space.
-/

namespace Storyline

/-- A JSON value. The members of an object keep their order. -/
inductive Json
  | null
  | bool (b : Bool)
  /-- A number written as an integer. -/
  | int (n : Int)
  /-- Any other number, as it is written. -/
  | real (text : String)
  | str (s : String)
  | arr (items : List Json)
  | obj (members : List (String × Json))
  deriving Inhabited, Repr

namespace Json

/-- A digit of base 16. -/
def hexDigit (n : Nat) : Char := Nat.digitChar n

/-- How a character stands inside a quoted text. -/
def escapeChar (c : Char) : List Char :=
  if c = '"' then ['\\', '"']
  else if c = '\\' then ['\\', '\\']
  else if c = '\x08' then ['\\', 'b']
  else if c = '\x0c' then ['\\', 'f']
  else if c = '\n' then ['\\', 'n']
  else if c = '\r' then ['\\', 'r']
  else if c = '\t' then ['\\', 't']
  else if c.toNat < 0x20 then
    ['\\', 'u', '0', '0', hexDigit (c.toNat / 16), hexDigit (c.toNat % 16)]
  else [c]

/-- A text in quotes. -/
def quote (s : String) : String := String.ofList ('"' :: s.toList.flatMap escapeChar ++ ['"'])

mutual

/-- The text of a value, without any space. -/
def render : Json → String
  | null => "null"
  | bool true => "true"
  | bool false => "false"
  | int n => toString n
  | real text => text
  | str s => quote s
  | arr [] => "[]"
  | arr (item :: items) => "[" ++ item.render ++ renderItems items
  | obj [] => "\x7b\x7d"
  | obj ((key, value) :: members) =>
    "\x7b" ++ quote key ++ ":" ++ value.render ++ renderMembers members

/-- The items after the first, and the end of the array. -/
def renderItems : List Json → String
  | [] => "]"
  | item :: items => "," ++ item.render ++ renderItems items

/-- The members after the first, and the end of the object. -/
def renderMembers : List (String × Json) → String
  | [] => "\x7d"
  | (key, value) :: members =>
    "," ++ quote key ++ ":" ++ value.render ++ renderMembers members

end

end Json

end Storyline

/-! ## Drafts of values

A text that should hold a value is not refused as a whole: it is read from left to right, and what
stands in front of the first problem counts. A draft is a value as far as it could be read. What is
asked of it decides which problem is met first: a reader that wants a number stops at a text before
it sees that the text is never closed.

* `Fault`: the kinds of problems;
* `Draft`, `Draft.Items`, `Draft.Members`;
* `Draft.ofJson`: a value as a draft without problems;
* `Draft.skip`: the first problem of a part that nobody reads;
* `Draft.value`: the value that the draft holds.
-/

namespace Storyline.Json

/-- Why a text or a value cannot be taken for what is wanted. -/
inductive Fault
  /-- Something else is wanted here. -/
  | shape
  /-- An array goes on after all that is wanted. -/
  | surplus
  /-- The text is no JSON. -/
  | syntactic
  /-- The text ends early. -/
  | truncated
  deriving DecidableEq, Repr

mutual

/-- A value as far as it can be read. -/
inductive Draft
  | null
  | bool (b : Bool)
  | int (n : Int)
  | real (text : String)
  /-- A number beyond all floating point numbers: well written, but not to be read. -/
  | excessive
  /-- A text; nothing if it holds half of a surrogate pair, so that it cannot be read. -/
  | str (s : Option String)
  | arr (items : Draft.Items)
  | obj (members : Draft.Members)
  /-- Nothing, with the fault that a reader meets, and the one that is met if it is skipped. -/
  | broken (read skip : Fault)

/-- The items of an array from some position on. -/
inductive Draft.Items
  | nil
  | cons (item : Draft) (rest : Draft.Items)
  | broken (fault : Fault)

/-- The members of an object from some position on. -/
inductive Draft.Members
  | nil
  | cons (key : Option String) (value : Draft) (rest : Draft.Members)
  | broken (read skip : Fault)

end

namespace Draft

mutual

/-- A value as a draft. -/
def ofJson : Json → Draft
  | .null => .null
  | .bool b => .bool b
  | .int n => .int n
  | .real text => .real text
  | .str s => .str (some s)
  | .arr items => .arr (Items.ofList items)
  | .obj members => .obj (Members.ofList members)

/-- The items of an array. -/
def Items.ofList : List Json → Items
  | [] => .nil
  | item :: items => .cons (ofJson item) (Items.ofList items)

/-- The members of an object. -/
def Members.ofList : List (String × Json) → Members
  | [] => .nil
  | (key, value) :: members => .cons (some key) (ofJson value) (Members.ofList members)

end

mutual

/-- Whether a value that nobody reads is well written. -/
def skip : Draft → Except Fault Unit
  | .broken _ fault => .error fault
  | .arr items => items.skip
  | .obj members => members.skip
  | _ => .ok ()

/-- Whether the items are well written. -/
def Items.skip : Items → Except Fault Unit
  | .nil => .ok ()
  | .cons item rest =>
    match item.skip with
    | .error fault => .error fault
    | .ok () => rest.skip
  | .broken fault => .error fault

/-- Whether the members are well written. -/
def Members.skip : Members → Except Fault Unit
  | .nil => .ok ()
  | .cons _ value rest =>
    match value.skip with
    | .error fault => .error fault
    | .ok () => rest.skip
  | .broken _ fault => .error fault

end

/-- The fault of a value of another kind than the one wanted. Scalars are read before they are
refused; of arrays and objects only the opening bracket is. -/
def mistaken : Draft → Fault
  | .broken fault _ => fault
  | .excessive => .syntactic
  | .str none => .syntactic
  | _ => .shape

mutual

/-- The value that the draft holds. -/
def value : Draft → Except Fault Json
  | .null => .ok .null
  | .bool b => .ok (.bool b)
  | .int n => .ok (.int n)
  | .real text => .ok (.real text)
  | .excessive => .error .syntactic
  | .str none => .error .syntactic
  | .str (some s) => .ok (.str s)
  | .arr items => items.values.map .arr
  | .obj members => members.values.map .obj
  | .broken fault _ => .error fault

/-- The values of the items. -/
def Items.values : Items → Except Fault (List Json)
  | .nil => .ok []
  | .cons item rest =>
    match item.value with
    | .error fault => .error fault
    | .ok v => rest.values.map (v :: ·)
  | .broken fault => .error fault

/-- The values of the members. Of members with one name the last counts. -/
def Members.values : Members → Except Fault (List (String × Json))
  | .nil => .ok []
  | .cons none _ _ => .error .syntactic
  | .cons (some key) item rest =>
    match item.value with
    | .error fault => .error fault
    | .ok v => rest.values.map fun others =>
      if others.any (·.1 = key) then others else (key, v) :: others
  | .broken fault _ => .error fault

end

end Draft

/-! ## Records in JSON

A record of named fields is written as an object, or as an array of the fields in a fixed order.
In an object unknown names are passed over, a known name given twice is refused, and a missing
field is noticed at the closing brace; an array must hold the fields and no more.

* `Reader`: readers of drafts; `text`, `nullable`, `bounded`, `items`;
* `Record`: the fields of a record, each with its reader and with what stands for it where it is
  missing; `Record.read`.
-/

/-- A reader takes a draft for a value of some type, or finds the first fault. -/
abbrev Reader (α : Type) := Draft → Except Fault α

namespace Reader

variable {α : Type}

/-- A text. -/
def text : Reader String
  | .str (some s) => .ok s
  | d => .error d.mistaken

/-- `null`, or what the reader takes. -/
def nullable (read : Reader α) : Reader (Option α)
  | .null => .ok none
  | d => (read d).map some

/-- An integer from `low` to `high`. -/
def integer (low high : Int) : Reader Int
  | .int n => if low ≤ n && n ≤ high then .ok n else .error .shape
  | d => .error d.mistaken

/-- An integer of 64 bits with a sign. -/
def int64 : Reader Int := integer (-0x8000000000000000) 0x7FFFFFFFFFFFFFFF

/-- An integer of 32 bits without a sign. -/
def uint32 : Reader UInt32 := fun d => (integer 0 0xFFFFFFFF d).map fun n => UInt32.ofNat n.toNat

/-- The items of an array, each read in the same way. -/
def itemsOf (read : Reader α) : Draft.Items → Except Fault (List α)
  | .nil => .ok []
  | .cons item rest =>
    match read item with
    | .error fault => .error fault
    | .ok a => (itemsOf read rest).map (a :: ·)
  | .broken fault => .error fault

/-- An array of values that are read in the same way. -/
def items (read : Reader α) : Reader (List α)
  | .arr xs => itemsOf read xs
  | d => .error d.mistaken

end Reader

/-- The fields of a record in the order of its array form, with the type of their values and the
type of the values read so far. `absent` stands for a field that an object does not have, `short`
for one that an array ends before. -/
inductive Record : (values slots : Type) → Type 1
  | done : Record Unit Unit
  | field {α β γ : Type} (name : String) (read : Reader α) (absent short : Option α)
      (rest : Record β γ) : Record (α × β) (Option α × γ)

namespace Record

variable {α β γ τ σ : Type}

/-- A field that has to be there. -/
def required (name : String) (read : Reader α) (rest : Record β γ) :
    Record (α × β) (Option α × γ) :=
  .field name read none none rest

/-- A field that may be `null`, and that an object may leave out. -/
def optional (name : String) (read : Reader α) (rest : Record β γ) :
    Record (Option α × β) (Option (Option α) × γ) :=
  .field name read.nullable (some none) none rest

/-- A field with a value that stands for it wherever it is left out. -/
def defaulted (name : String) (read : Reader α) (value : α) (rest : Record β γ) :
    Record (α × β) (Option α × γ) :=
  .field name read (some value) (some value) rest

/-- No field has been read. -/
def blank : {τ σ : Type} → Record τ σ → σ
  | _, _, .done => ()
  | _, _, .field _ _ _ _ rest => (none, rest.blank)

/-- Read the field of a name; nothing if no field has the name. A field is asked first whether it
has been read already. -/
def fill? : {τ σ : Type} → Record τ σ → (key : String) → Draft → σ → Option (Except Fault σ)
  | _, _, .done, _, _, _ => none
  | _, _, .field name read _ _ rest, key, d, (slot, slots) =>
    if name = key then
      some (if slot.isSome then .error .shape else (read d).map fun a => (some a, slots))
    else (rest.fill? key d slots).map fun r => r.map fun slots => (slot, slots)

/-- The record of what has been read, with the values of absent fields. -/
def close : {τ σ : Type} → Record τ σ → σ → Except Fault τ
  | _, _, .done, _ => .ok ()
  | _, _, .field _ _ absent _ rest, (slot, slots) =>
    match slot.or absent with
    | none => .error .shape
    | some a => (rest.close slots).map fun b => (a, b)

/-- The record of an object's members, after some fields have been read. -/
def ofMembers (r : Record τ σ) : Draft.Members → σ → Except Fault τ
  | .nil, slots => r.close slots
  | .broken fault _, _ => .error fault
  | .cons none _ _, _ => .error .syntactic
  | .cons (some key) value rest, slots =>
    match r.fill? key value slots with
    | none =>
      match value.skip with
      | .error fault => .error fault
      | .ok () => r.ofMembers rest slots
    | some (.error fault) => .error fault
    | some (.ok slots) => r.ofMembers rest slots

/-- The record of the values that stand for fields which an array ends before. -/
def shortened : {τ σ : Type} → Record τ σ → Except Fault τ
  | _, _, .done => .ok ()
  | _, _, .field _ _ _ short rest =>
    match short with
    | none => .error .shape
    | some a => rest.shortened.map fun b => (a, b)

/-- The record of an array's items. -/
def ofItems : {τ σ : Type} → Record τ σ → Draft.Items → Except Fault τ
  | _, _, r, .nil => r.shortened
  | _, _, _, .broken fault => .error fault
  | _, _, .done, .cons _ _ => .error .surplus
  | _, _, .field _ read _ _ rest, .cons item items =>
    match read item with
    | .error fault => .error fault
    | .ok a => (rest.ofItems items).map fun b => (a, b)

/-- A record in either form. -/
def read (r : Record τ σ) : Reader τ
  | .obj members => r.ofMembers members r.blank
  | .arr items => r.ofItems items
  | d => .error d.mistaken

end Record

end Storyline.Json
