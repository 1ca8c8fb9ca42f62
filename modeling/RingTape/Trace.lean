import RingTape.Machine
import RingTape.Console.CellText
import RingTape.Text.Padding
import RingTape.Text.Quoted

namespace RingTape
namespace Trace

/-!
# The trace table

A traced run writes a table with one row for each instruction.  A row shows
the machine as it was before the instruction and says in its last column
what the instruction did.  The columns are padded to a fixed width and are
separated by bars; a wider number pushes the rest of its row to the right.

What an instruction did is recorded as an `Action` first and put into words
afterwards, so that statements about the table need not read prose.
-/

/-- What the table knows of a machine before an instruction. -/
structure Snapshot where
  step : Nat
  position : Nat
  pointer : Nat
  cell : UInt8
  deriving DecidableEq, Repr

/-- What an instruction did. -/
inductive Action where
  | moved (pointer : Nat)
  | incremented (pointer : Nat) (before after : UInt8)
  | decremented (pointer : Nat) (before after : UInt8)
  /-- Output is shown in the table and not written. -/
  | withheld (cell : UInt8)
  /-- Input stores zero and reads nothing. -/
  | simulated
  | skipped (close : Nat)
  | entered
  | left
  | repeated (start : Nat)
  deriving DecidableEq, Repr

/-- One row of the table. -/
structure Row where
  before : Snapshot
  instruction : Instruction
  action : Action
  deriving DecidableEq, Repr

/-- A machine as the table shows it. -/
def Snapshot.ofMachine (step : Nat) (machine : Machine) : Snapshot :=
  ⟨step, machine.position, machine.tape.pointer, machine.tape.current⟩

namespace Action

/-- What an instruction did, from the machine before and after it. -/
def between (before : Snapshot) (instruction : Instruction) (after : Machine) : Action :=
  match instruction with
  | .command .moveLeft | .command .moveRight => moved after.tape.pointer
  | .command .increment => incremented before.pointer before.cell after.tape.current
  | .command .decrement => decremented before.pointer before.cell after.tape.current
  | .command .output => withheld after.tape.current
  | .command .input => simulated
  | .loopStart => if before.cell = 0 then skipped (after.position - 1) else entered
  | .loopEnd => if before.cell = 0 then left else repeated (after.position - 1)

/-- A cell as the table shows it: quoted in character mode, so that it stays
on its row. -/
def showCell : Mode → UInt8 → String
  | .character, cell => Text.quoted cell
  | .numeric, cell => toString cell.toNat

/-- An action in words. -/
def describe (mode : Mode) : Action → String
  | moved pointer => "Moved pointer to index " ++ toString pointer
  | incremented pointer before after =>
    "Increment cell[" ++ toString pointer ++ "] from " ++ toString before.toNat ++
      " to " ++ toString after.toNat
  | decremented pointer before after =>
    "Decrement cell[" ++ toString pointer ++ "] from " ++ toString before.toNat ++
      " to " ++ toString after.toNat
  | withheld cell => "Output " ++ showCell mode cell ++ " (suppressed in debug)"
  | simulated => "Read input -> simulated 0"
  | skipped close => "Cell is 0; skip loop to matching ']' at IP " ++ toString close
  | entered => "Enter loop (cell != 0)"
  | left => "Exit loop (cell is 0)"
  | repeated start => "Cell != 0; jump back to matching '[' at IP " ++ toString start

end Action

/-- The two lines above the rows. -/
def header : String :=
  "STEP | IP  | PTR | CELL | INSTR | ACTION\n" ++
  "-----+-----+-----+------+-------+------------------------------------------------\n"

/-- One line of the table. -/
def Row.describe (mode : Mode) (row : Row) : String :=
  Text.padRight 4 (toString row.before.step) ++ " | " ++
  Text.padRight 3 (toString row.before.position) ++ " | " ++
  Text.padRight 3 (toString row.before.pointer) ++ " | " ++
  Text.padRight 4 (toString row.before.cell.toNat) ++ " |  " ++
  String.singleton row.instruction.toChar ++ "    | " ++
  row.action.describe mode ++ "\n"

/-- The row for one instruction. -/
def Row.between (before : Snapshot) (instruction : Instruction) (after : Machine) : Row :=
  ⟨before, instruction, .between before instruction after⟩

end Trace
end RingTape
