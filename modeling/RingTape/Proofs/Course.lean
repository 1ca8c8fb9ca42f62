import RingTape.Configuration
import RingTape.Proofs.Writing
import RingTape.Proofs.OpenLoops

namespace RingTape

/-!
# Traced runs follow the course of their programs

A machine keeps a record of the loops that it has entered, a configuration
does not.  In a balanced program the record names at the end of a loop the
bracket that this end belongs to, which is the bracket that a search finds
(`Program.matchingStart?_of_matchingEnd?`).  So the step of a machine and the
next configuration agree, and a traced run follows the course of its program
instruction by instruction (`Program.course_of_execute`).
-/

namespace Program

variable {program : Program} {start close : Nat}

theorem lt_of_matchingEnd? (found : program.matchingEnd? start = some close) : start < close :=
  (lt_of_closingFrom found).1

/-- The search backwards finds what the search forwards started from. -/
theorem matchingStart?_of_matchingEnd? (opening : program[start]? = some .loopStart)
    (found : program.matchingEnd? start = some close) :
    program.matchingStart? close = some start := by
  have belongs (other : Nat) :
      (program[other]? == some .loopStart && program.matchingEnd? other == some close) = true ↔
        program[other]? = some .loopStart ∧ program.matchingEnd? other = some close := by
    rw [Bool.and_eq_true, beq_iff_eq, beq_iff_eq]
  cases search : program.matchingStart? close with
  | none =>
    have within := List.mem_range.mpr (lt_of_matchingEnd? found)
    have missed := List.find?_eq_none.mp search start within
    exact absurd ((belongs start).mpr ⟨opening, found⟩) missed
  | some other =>
    rw [matchingStart?] at search
    have satisfied := List.find?_some search
    rcases (belongs other).mp satisfied with ⟨otherOpening, otherFound⟩
    rw [eq_of_matchingEnd? opening otherOpening found otherFound]

end Program

namespace Machine

variable {program : Program} {machine next : Machine} {instruction : Instruction}

/-- The step of a machine that records its loops rightly leads to the next
configuration. -/
theorem next?_of_step (balanced : Program.Balanced program.toList)
    (nested : machine.Nested program) (here : program[machine.position]? = some instruction)
    (stepped : machine.step program instruction 0 = .ok next) :
    machine.configuration.next? program = some next.configuration := by
  have there : program[machine.configuration.position]? = some instruction := here
  cases instruction with
  | command action =>
    cases stepped
    exact Configuration.next?_command there
  | loopStart =>
    by_cases zero : machine.tape.current = 0
    · rcases Program.exists_matchingEnd? balanced here with ⟨close, found, _⟩
      simp only [step, zero, if_true, found] at stepped
      cases stepped
      have search : program.matchingEnd? machine.configuration.position = some close := found
      rw [Configuration.next?_loopStart_of_zero there zero, search]
      rfl
    · simp only [step, zero, if_false] at stepped
      cases stepped
      exact Configuration.next?_loopStart_of_ne_zero there zero
  | loopEnd =>
    by_cases zero : machine.tape.current = 0
    · simp only [step, zero, if_true] at stepped
      cases stepped
      exact Configuration.next?_loopEnd_of_zero there zero
    · rcases Program.exists_openAfter_of_loopEnd balanced here with ⟨start, opening, found, stack⟩
      have record : machine.openLoops = start :: program.openAfter start :=
        nested.record.trans stack
      simp only [step, zero, if_false, record] at stepped
      cases stepped
      have search : program.matchingStart? machine.configuration.position = some start :=
        Program.matchingStart?_of_matchingEnd? opening found
      rw [Configuration.next?_loopEnd_of_ne_zero there zero, search]
      rfl

end Machine

namespace Program

open Progress (running)

variable {program : Program} {options : Options} {tape : Tape} {console : Console}
  {count : Nat} {run : Run}

theorem nested_of_execute (balanced : Balanced program.toList)
    (goes : program.execute options tape console count = running run) :
    run.machine.Nested program := by
  have nested := nested_executeAmid balanced options tape console .silent count
  rw [executeAmid_silent, goes] at nested
  exact nested

end Program

namespace Run

variable {run next : Run} {options : Options} {program : Program}

/-- A traced run that goes on has supplied its machine with nothing but
zero. -/
theorem stepped_of_traced (traced : options.traced = true)
    (goes : run.advance options program = .running next) :
    ∃ instruction, program[run.machine.position]? = some instruction ∧
      run.machine.step program instruction 0 = .ok next.machine ∧
      next.steps = run.steps + 1 := by
  have outcome := outcome_advance run options program
  rw [goes] at outcome
  cases outcome with
  | performed _ _ _ _ _ untraced _ _ =>
    rw [traced] at untraced
    cases untraced
  | rowWritten instruction _ _ here _ stepped _ => exact ⟨instruction, here, stepped, rfl⟩

end Run

namespace Program

open Progress (running)

variable {program : Program} {options : Options} {tape : Tape} {console : Console}
  {count : Nat} {run : Run}

theorem course_of_execute (balanced : Balanced program.toList) (traced : options.traced = true)
    (goes : program.execute options tape console count = running run) :
    program.course tape count = some run.machine.configuration := by
  induction count generalizing run with
  | zero =>
    have loaded := Run.machine_begin options tape console
    rw [← execute_zero program, goes] at loaded
    have loaded : run.machine = .load tape := loaded
    rw [loaded]
    rfl
  | succ count ih =>
    rw [← executeAmid_silent] at goes
    rcases exists_before_of_running goes with ⟨before, reached, step⟩
    rw [executeAmid_silent] at reached
    rw [Run.signalled_silent] at step
    rcases Run.stepped_of_traced traced step with ⟨instruction, here, stepped, _⟩
    rw [course, ih reached, Option.bind_some]
    exact Machine.next?_of_step balanced (nested_of_execute balanced reached) here stepped

end Program
end RingTape
