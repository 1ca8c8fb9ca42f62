import RingTape.Mode
import RingTape.Text.Encoding
import RingTape.Text.Unsigned

namespace RingTape
namespace Mode

/-!
# Cells as text

What a mode writes for a cell, and which input records it accepts for one.
A record may end in a line feed, in a carriage return, or in both in this
order; the ending is taken off once before the value is read.  Character
input wants exactly one character with a code that fits a cell.  Numeric
input wants an unsigned numeral that fits a cell, with blanks around it if
they please.  Malformed bytes are refused in both modes.
-/

/-- The text that output writes for a cell. -/
def render : Mode → UInt8 → String
  | character, cell => String.singleton (Char.ofNat cell.toNat)
  | numeric, cell => String.ofList (Text.numeral cell.toNat)

/-- A text without its last character, if that is the given one. -/
def withoutFinal (final : Char) (text : List Char) : List Char :=
  if text.getLast? = some final then text.dropLast else text

/-- A record without its ending. -/
def withoutEnding (text : List Char) : List Char :=
  withoutFinal '\r' (withoutFinal '\n' text)

/-- The number of values a cell can have. -/
def cellBound : Nat := UInt8.size

/-- The cell that a text denotes, its ending taken off. -/
def readCell? : Mode → List Char → Option UInt8
  | character, [single] =>
    if single.toNat < cellBound then some (UInt8.ofNat single.toNat) else none
  | character, _ => none
  | numeric, text => (Text.unsigned? cellBound (Text.trim text)).map UInt8.ofNat

/-- The cell that an input record denotes. -/
def decode? (mode : Mode) (record : List UInt8) : Option UInt8 :=
  (Text.decode? record).bind fun text => mode.readCell? (withoutEnding text.toList)

end Mode
end RingTape
