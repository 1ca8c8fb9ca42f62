import RingTape.Machine

namespace RingTape

/-!
# The course of a program

What a program does without a machine to carry it out: a configuration is a
place in the program and a tape, and the instruction at that place says which
configuration comes next.  The brackets of a loop belong together by the
program alone, so nothing has to be remembered of the loops that were
entered.  Input stores zero here and output does nothing; this is the course
that a traced run takes.
-/

/-- A place in a program, and a tape. -/
structure Configuration where
  position : Nat
  tape : Tape

/-- A machine without its record of the entered loops. -/
def Machine.configuration (machine : Machine) : Configuration :=
  ⟨machine.position, machine.tape⟩

/-- The opening bracket of the loop that closes at `close`. -/
def Program.matchingStart? (program : Program) (close : Nat) : Option Nat :=
  (List.range close).find? fun start =>
    program[start]? == some .loopStart && program.matchingEnd? start == some close

namespace Configuration

/-- The configuration before the first instruction. -/
def load (tape : Tape) : Configuration := ⟨0, tape⟩

/-- The configuration after the instruction at its place, if there is one. -/
def next? (configuration : Configuration) (program : Program) : Option Configuration :=
  match program[configuration.position]? with
  | none => none
  | some (.command action) =>
    some ⟨configuration.position + 1, configuration.tape.apply action 0⟩
  | some .loopStart =>
    if configuration.tape.current = 0 then
      (program.matchingEnd? configuration.position).map fun close =>
        ⟨close + 1, configuration.tape⟩
    else
      some ⟨configuration.position + 1, configuration.tape⟩
  | some .loopEnd =>
    if configuration.tape.current = 0 then
      some ⟨configuration.position + 1, configuration.tape⟩
    else
      (program.matchingStart? configuration.position).map fun start =>
        ⟨start + 1, configuration.tape⟩

section Instructions

variable {configuration : Configuration} {program : Program}

theorem next?_command {action : Command}
    (here : program[configuration.position]? = some (.command action)) :
    configuration.next? program =
      some ⟨configuration.position + 1, configuration.tape.apply action 0⟩ := by
  simp only [next?, here]

theorem next?_loopStart_of_zero (here : program[configuration.position]? = some .loopStart)
    (zero : configuration.tape.current = 0) :
    configuration.next? program = (program.matchingEnd? configuration.position).map
      fun close => ⟨close + 1, configuration.tape⟩ := by
  simp only [next?, here, zero, if_true]

theorem next?_loopStart_of_ne_zero (here : program[configuration.position]? = some .loopStart)
    (other : configuration.tape.current ≠ 0) :
    configuration.next? program =
      some ⟨configuration.position + 1, configuration.tape⟩ := by
  simp only [next?, here, other, if_false]

theorem next?_loopEnd_of_zero (here : program[configuration.position]? = some .loopEnd)
    (zero : configuration.tape.current = 0) :
    configuration.next? program =
      some ⟨configuration.position + 1, configuration.tape⟩ := by
  simp only [next?, here, zero, if_true]

theorem next?_loopEnd_of_ne_zero (here : program[configuration.position]? = some .loopEnd)
    (other : configuration.tape.current ≠ 0) :
    configuration.next? program = (program.matchingStart? configuration.position).map
      fun start => ⟨start + 1, configuration.tape⟩ := by
  simp only [next?, here, other, if_false]

end Instructions
end Configuration

/-- The configuration of a program after so many instructions on a tape, if
it gets that far. -/
def Program.course (program : Program) (tape : Tape) : Nat → Option Configuration
  | 0 => some (.load tape)
  | count + 1 =>
    (course program tape count).bind fun configuration => configuration.next? program

end RingTape
