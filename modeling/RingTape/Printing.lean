import RingTape.Signals
import RingTape.Text.Pieces

namespace RingTape

/-!
# What a run prints

A run prints the cells that its output instructions meet, in the order in
which they are carried out.  The cells are told apart from their text: how
many there are and what they hold is a matter of the machine, and a mode
only renders them.

A cell counts as soon as its instruction was carried out, which is when the
whole text of it was accepted.

`Mode.Shows` is the other direction.  It says which cells a reader finds in
the bytes that were written, and does so by cutting and decoding them, not by
rendering cells.
-/

namespace Mode

/-- What stands between two cells. -/
def separator : Mode → String
  | character => ""
  | numeric => " "

/-- The text of these cells, printed one after the other. -/
def text (mode : Mode) (cells : List UInt8) : String :=
  mode.separator.intercalate (cells.map mode.render)

/-- A reader finds these cells in these bytes.  In character mode the bytes
are well-formed and each character has a cell for its code.  In numeric mode
there are no bytes if there are no cells; otherwise what stands between
single spaces is the decimal numeral of a cell, and never nothing. -/
def Shows : Mode → List UInt8 → List UInt8 → Prop
  | character, written, cells =>
    ∃ text, Text.decode? written = some text ∧
      text.toList.map Char.toNat = cells.map UInt8.toNat
  | numeric, written, cells =>
    (written = [] ↔ cells = []) ∧
      (cells ≠ [] → ∃ text, Text.decode? written = some text ∧
        [] ∉ List.splitOn ' ' text.toList ∧
        List.splitOn ' ' text.toList = cells.map fun cell => Text.numeral cell.toNat)

end Mode

/-- What a real run writes at its end, besides the cells. -/
def Ending.notice : Ending → String
  | completed => Console.completionNotice
  | interrupted | failed _ => ""

/-- The cell that the next instruction prints: none, unless it is output and
is carried out. -/
def Run.prints (run : Run) (options : Options) (program : Program) : List UInt8 :=
  match program[run.machine.position]?, run.advance options program with
  | some (.command .output), .running _ => [run.machine.tape.current]
  | _, _ => []

/-- The cells that are printed on the way, if a run goes on by at most this
many instructions. -/
def Progress.printed (options : Options) (program : Program) : Nat → Progress → List UInt8
  | count + 1, running run =>
    run.prints options program ++ printed options program count (run.advance options program)
  | _, _ => []

namespace Program

/-- The cells that a program prints within a budget. -/
def printed (program : Program) (options : Options) (tape : Tape) (console : Console)
    (budget : Nat) : List UInt8 :=
  Progress.printed options program budget (Run.begin options tape console)

/-- The cells that a program prints within a budget under the given signals:
at each moment the cell of the instruction that is carried out next. -/
def printedAmid (program : Program) (options : Options) (tape : Tape) (console : Console)
    (signals : Signals) : Nat → List UInt8
  | 0 => []
  | budget + 1 =>
    printedAmid program options tape console signals budget ++
      match program.executeAmid options tape console signals budget with
      | .running run => (run.signalled signals).prints options program
      | .ended _ _ | .stuck _ _ => []

/-- A run of the program ends in this way, after it has printed these cells
and nothing else. -/
def Finishes (program : Program) (options : Options) (tape : Tape) (console : Console)
    (cells : List UInt8) (how : Ending) (final : Run) : Prop :=
  ∃ budget, program.execute options tape console budget = .ended how final ∧
    program.printed options tape console budget = cells

end Program
end RingTape
