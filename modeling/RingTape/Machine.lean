import RingTape.Program.Matching
import RingTape.Tape

namespace RingTape

/-!
# The machine

A machine is a tape together with a place in a program and the loops that
were entered and not yet left, innermost first.  Its step is the meaning of
one instruction.  Values that come from outside are handed in, so the step
is the same whether they were read, or simulated by a constant.

A loop that is not entered is skipped by the search of
`Program.matchingEnd?`; a loop that is repeated goes back to the innermost
entered bracket, which stays entered.  Both can fail on a program whose
brackets do not match.  The step then says which of the two failed and does
not guess.
-/

/-- The state of a computation between two instructions. -/
structure Machine where
  position : Nat
  openLoops : List Nat
  tape : Tape

/-- Why a step has no result.  A balanced program never gets here. -/
inductive Stuck where
  /-- A loop is to be skipped and has no end. -/
  | noMatchingEnd
  /-- A loop is to be repeated and none was entered. -/
  | noOpenLoop
  deriving DecidableEq, Repr

namespace Machine

/-- The machine before the first instruction. -/
def load (tape : Tape) : Machine := ⟨0, [], tape⟩

/-- The effect of one instruction, standing at the machine's position. -/
@[inline]
def step (machine : Machine) (program : Program) (instruction : Instruction)
    (supplied : UInt8) : Except Stuck Machine :=
  match instruction with
  | .command command =>
    .ok { machine with
      position := machine.position + 1
      tape := machine.tape.apply command supplied }
  | .loopStart =>
    if machine.tape.current = 0 then
      match program.matchingEnd? machine.position with
      | some close => .ok { machine with position := close + 1 }
      | none => .error .noMatchingEnd
    else
      .ok { machine with
        position := machine.position + 1
        openLoops := machine.position :: machine.openLoops }
  | .loopEnd =>
    if machine.tape.current = 0 then
      .ok { machine with
        position := machine.position + 1
        openLoops := machine.openLoops.tail }
    else
      match machine.openLoops with
      | start :: _ => .ok { machine with position := start + 1 }
      | [] => .error .noOpenLoop

end Machine
end RingTape
