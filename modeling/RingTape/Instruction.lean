namespace RingTape

/-!
# The eight instructions

Every instruction is written as one character, and every other character of
a source text is commentary.  Six of the eight are commands: they act on the
tape or its surroundings and pass control to the next instruction.  The
other two are the brackets of a loop, which only direct control.

The two character tables are inverse to each other: `ofChar?` reads exactly
the characters that `toChar` writes.  Which brackets belong together is a
property of a whole program and is not settled here.
-/

/-- An instruction that acts and then passes control on. -/
inductive Command where
  | moveLeft
  | moveRight
  | increment
  | decrement
  | output
  | input
  deriving DecidableEq, Repr, Inhabited

/-- One instruction of the language: a command or a bracket of a loop. -/
inductive Instruction where
  | command (action : Command)
  | loopStart
  | loopEnd
  deriving DecidableEq, Repr, Inhabited

namespace Instruction

/-- The character that an instruction is written as. -/
def toChar : Instruction → Char
  | command .moveLeft => '<'
  | command .moveRight => '>'
  | command .increment => '+'
  | command .decrement => '-'
  | command .output => '.'
  | command .input => ','
  | loopStart => '['
  | loopEnd => ']'

/-- The instruction a character stands for, if it is not commentary. -/
def ofChar? : Char → Option Instruction
  | '<' => some (command .moveLeft)
  | '>' => some (command .moveRight)
  | '+' => some (command .increment)
  | '-' => some (command .decrement)
  | '.' => some (command .output)
  | ',' => some (command .input)
  | '[' => some loopStart
  | ']' => some loopEnd
  | _ => none

theorem ofChar?_toChar (instruction : Instruction) :
    ofChar? instruction.toChar = some instruction := by
  rcases instruction with (_ | _ | _ | _ | _ | _) | _ | _ <;> rfl

theorem toChar_of_ofChar? {character : Char} {instruction : Instruction}
    (read : ofChar? character = some instruction) : instruction.toChar = character := by
  unfold ofChar? at read
  split at read <;> cases read <;> rfl

end Instruction
end RingTape
