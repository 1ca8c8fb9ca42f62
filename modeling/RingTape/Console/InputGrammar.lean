import RingTape.Console.CellText
import RingTape.Text.Trimming

namespace RingTape

/-!
# What input may look like

Which records denote which cell, said as a grammar.  A character is its own
written form.  It may be followed by a line ending, of which a single line
feed, a single carriage return and the pair of both are three; a line feed
itself cannot be given, since it ends the record, and a carriage return only
if another one follows that belongs to the ending.  A number is a row of
decimal digits, as long as it likes, that may have one plus sign in front
and any blanks around it; a line ending is one of these blanks.

A whole input for some cells has a line for each of them.  It is put together
from the other side: a cell is rendered, and the line is ended.

`Mode.decode?` reads records by taking endings off and looking at what is
left.  Nothing here refers to it.
-/

namespace Mode

/-- The ways in which a record can end. -/
def endings : List String := ["", "\r", "\n", "\r\n"]

/-- Whether a cell can be told from the ending of its line.  Among
characters a line feed never can, and a carriage return only if the ending
has another one. -/
def Survives : Mode → UInt8 → String → Prop
  | character, cell, ending => cell ≠ 10 ∧ (cell = 13 → '\r' ∈ ending.toList)
  | numeric, _, _ => True

/-- A record that input accepts, and the cell that it denotes. -/
def Accepts : Mode → List UInt8 → UInt8 → Prop
  | character, record, cell =>
    ∃ ending ∈ endings,
      record = Text.encode (String.singleton (Char.ofNat cell.toNat) ++ ending) ∧
        character.Survives cell ending
  | numeric, record, cell =>
    ∃ text sign digits, Text.decode? record = some text ∧
      Text.Padded (sign ++ digits) text.toList ∧ (sign = [] ∨ sign = ['+']) ∧
        Text.natural? digits = some cell.toNat

/-- A line that renders a cell: the character itself, or a decimal numeral
with any zeros in front, at most one plus sign, and blanks around it.  A line
feed is a blank but would be the end of the line. -/
def Renders : Mode → UInt8 → String → Prop
  | character, cell, line => line = String.singleton (Char.ofNat cell.toNat)
  | numeric, cell, line =>
    ∃ sign zeros, (sign = [] ∨ sign = ['+']) ∧
      Text.Padded (sign ++ (List.replicate zeros '0' ++ Text.numeral cell.toNat)) line.toList ∧
        '\n' ∉ line.toList

/-- A text with a line for each of these cells, in order.  Every line has an
ending of its own, the last one perhaps none. -/
inductive Lines (mode : Mode) : List UInt8 → String → Prop
  | none : Lines mode [] ""
  | last {cell : UInt8} {line : String} (renders : mode.Renders cell line)
    (survives : mode.Survives cell "") :
    Lines mode [cell] line
  | line {cell : UInt8} {cells : List UInt8} {line ending rest : String}
    (renders : mode.Renders cell line) (ends : ending = "\n" ∨ ending = "\r\n")
    (survives : mode.Survives cell ending) (others : Lines mode cells rest) :
    Lines mode (cell :: cells) (line ++ ending ++ rest)

end Mode
end RingTape
