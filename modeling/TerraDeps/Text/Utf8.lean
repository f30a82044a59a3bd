/-!
# Reading bytes as UTF-8

`Utf8.decode` gives the text of well-formed bytes and otherwise says where the first ill-formed
sequence starts and how long it is. A sequence's maximal ill-formed part is its longest start that
some well-formed character shares, or a single byte; a sequence that the input cuts short is
incomplete.
-/

set_option autoImplicit false

namespace TerraDeps.Text.Utf8

/-- Why bytes are no UTF-8 text. -/
inductive Fault where
  /-- `length` bytes from `index` on can belong to no character. -/
  | invalid (length index : Nat)
  /-- The bytes end within the character that starts at `index`. -/
  | incomplete (index : Nat)
  deriving DecidableEq, Repr

/-- The report of ill-formed bytes. -/
def Fault.message : Fault → String
  | invalid length index => s!"invalid utf-8 sequence of {length} bytes from index {index}"
  | incomplete index => s!"incomplete utf-8 byte sequence from index {index}"

/-- Whether a byte continues a character. -/
def isTail (b : UInt8) : Bool :=
  0x80 ≤ b && b ≤ 0xBF

/-- The bytes that may follow the first byte of a character, as one test for each of them, or
nothing if no character starts with that byte. -/
def tailTests (first : UInt8) : Option (List (UInt8 → Bool)) :=
  if first < 0x80 then some []
  else if 0xC2 ≤ first && first ≤ 0xDF then some [isTail]
  else if first == 0xE0 then some [fun b => 0xA0 ≤ b && b ≤ 0xBF, isTail]
  else if first == 0xED then some [fun b => 0x80 ≤ b && b ≤ 0x9F, isTail]
  else if 0xE1 ≤ first && first ≤ 0xEF then some [isTail, isTail]
  else if first == 0xF0 then some [fun b => 0x90 ≤ b && b ≤ 0xBF, isTail, isTail]
  else if 0xF1 ≤ first && first ≤ 0xF3 then some [isTail, isTail, isTail]
  else if first == 0xF4 then some [fun b => 0x80 ≤ b && b ≤ 0x8F, isTail, isTail]
  else none

/-- The number of leading bytes that pass the tests in turn, and whether the bytes ran out before
the tests did. -/
def passing : List (UInt8 → Bool) → List UInt8 → Nat × Bool
  | [], _ => (0, false)
  | _ :: _, [] => (0, true)
  | test :: tests, b :: bytes =>
    if test b then
      let (n, short) := passing tests bytes
      (n + 1, short)
    else (0, false)

/-- The first fault in the bytes, which start at `index`; `owed` counts the bytes that belong to a
character already checked. -/
def firstFault? (index owed : Nat) : List UInt8 → Option Fault
  | [] => none
  | b :: bytes =>
    match owed with
    | owed + 1 => firstFault? (index + 1) owed bytes
    | 0 => match tailTests b with
      | none => some (.invalid 1 index)
      | some tests =>
        let (n, short) := passing tests bytes
        if n = tests.length then firstFault? (index + 1) n bytes
        else if short then some (.incomplete index)
        else some (.invalid (n + 1) index)

/-- The text of the bytes, or the first place where they are no UTF-8. -/
def decode (bytes : ByteArray) : Except Fault String :=
  match String.fromUTF8? bytes with
  | some text => .ok text
  | none => .error ((firstFault? 0 0 bytes.data.toList).getD (.incomplete bytes.size))

/-- The bytes of a text. -/
def encode (text : String) : List UInt8 :=
  text.toByteArray.data.toList

end TerraDeps.Text.Utf8
