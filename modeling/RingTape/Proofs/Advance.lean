import RingTape.Run

namespace RingTape

/-!
# What one step of a run can be

A run begins in one of three ways, and `Run.advance` chooses between five
ways to go on.  Each has an equation here that names the conditions under
which it is taken.  The ways that end a run are given in closed form, and an
instruction is described by what the console answered and by what the
machine made of it.  `Outcome` collects what can come of a step; proofs that
have to consider every step take it apart and leave the definitions closed.
The last section follows a run to its end, which it has at most one of.
-/

namespace Run

variable {run : Run} {options : Options} {program : Program} {instruction : Instruction}

section Beginning

variable {tape : Tape} {console : Console}

theorem begin_of_untraced (untraced : options.traced = false) :
    begin options tape console = .running ⟨.load tape, 0, { console with emitted := 0 }⟩ := by
  simp only [begin, untraced, Bool.false_eq_true, if_false]

theorem begin_of_error {failure : DeviceFailure} {after : Console}
    (traced : options.traced = true)
    (refused : ({ console with emitted := 0 } : Console).write Trace.header =
      (.error failure, after)) :
    begin options tape console =
      .ended (.failed (.device 0 failure)) ⟨.load tape, 0, after⟩ := by
  simp only [begin, traced, if_true, refused, fail]

theorem begin_of_ok {after : Console} (traced : options.traced = true)
    (accepted : ({ console with emitted := 0 } : Console).write Trace.header =
      (.ok (), after)) :
    begin options tape console = .running ⟨.load tape, 0, after⟩ := by
  simp only [begin, traced, if_true, accepted]

/-- What holds of every way to begin holds of the beginning. -/
theorem begin_cases {motive : Progress → Prop} (options : Options) (tape : Tape)
    (console : Console)
    (untraced : options.traced = false →
      motive (.running ⟨.load tape, 0, { console with emitted := 0 }⟩))
    (error : ∀ failure after, options.traced = true →
      ({ console with emitted := 0 } : Console).write Trace.header = (.error failure, after) →
      motive (.ended (.failed (.device 0 failure)) ⟨.load tape, 0, after⟩))
    (ok : ∀ after, options.traced = true →
      ({ console with emitted := 0 } : Console).write Trace.header = (.ok (), after) →
      motive (.running ⟨.load tape, 0, after⟩)) :
    motive (begin options tape console) := by
  cases traced : options.traced with
  | false =>
    rw [begin_of_untraced traced]
    exact untraced traced
  | true =>
    rcases answer : ({ console with emitted := 0 } : Console).write Trace.header with
      ⟨failure | _, after⟩
    · rw [begin_of_error traced answer]
      exact error failure after traced answer
    · rw [begin_of_ok traced answer]
      exact ok after traced answer

theorem steps_of_begin {start : Run}
    (began : begin options tape console = .running start) : start.steps = 0 := by
  revert began
  apply begin_cases (motive := fun progress => progress = .running start → start.steps = 0)
  · intro _ began
    cases began
    rfl
  · intro failure after _ _ began
    cases began
  · intro after _ _ began
    cases began
    rfl

theorem machine_begin (options : Options) (tape : Tape) (console : Console) :
    (begin options tape console).run.machine = .load tape := by
  apply begin_cases (motive := fun progress => progress.run.machine = .load tape)
  · intro _
    rfl
  · intro _ _ _ _
    rfl
  · intro _ _ _
    rfl

end Beginning

section Ways

theorem advance_of_none (past : program[run.machine.position]? = none) :
    run.advance options program = run.finish := by
  simp only [advance, past]

theorem advance_of_stopped (here : program[run.machine.position]? = some instruction)
    (stopped : run.console.stopped = true) :
    run.advance options program = run.interrupt := by
  simp only [advance, here, stopped, if_true]

theorem advance_of_limit {limit : Nat}
    (here : program[run.machine.position]? = some instruction)
    (free : run.console.stopped = false) (limited : run.exhaustedLimit options = some limit) :
    run.advance options program = .ended (.failed (.stepLimit limit)) run := by
  simp only [advance, here, free, Bool.false_eq_true, if_false, limited]

theorem advance_of_traced (here : program[run.machine.position]? = some instruction)
    (free : run.console.stopped = false) (room : run.exhaustedLimit options = none)
    (traced : options.traced = true) :
    run.advance options program = run.trace options program instruction := by
  simp only [advance, here, free, Bool.false_eq_true, if_false, room, traced, if_true]

theorem advance_of_untraced (here : program[run.machine.position]? = some instruction)
    (free : run.console.stopped = false) (room : run.exhaustedLimit options = none)
    (untraced : options.traced = false) :
    run.advance options program = run.perform options program instruction := by
  simp only [advance, here, free, Bool.false_eq_true, if_false, room, untraced]

end Ways

section Endings

/-- How a run ends at a position when its last dealings with the console
came out like this. -/
def endingAfter (position : Nat) (intended : Ending) : Except DeviceFailure Unit → Ending
  | .ok () => intended
  | .error failure => .failed (.device position failure)

theorem endingAfter_ne {position : Nat} {intended other : Ending} (different : intended ≠ other)
    (fine : ∀ error, other ≠ .failed error) (result : Except DeviceFailure Unit) :
    endingAfter position intended result ≠ other := by
  cases result with
  | ok => exact different
  | error failure => exact (fine _).symm

theorem finish_eq (run : Run) :
    run.finish =
      .ended (endingAfter run.machine.position .completed run.console.conclude.1)
        { run with console := run.console.conclude.2 } := by
  rcases concluded : run.console.conclude with ⟨_ | _, console⟩ <;>
    simp only [finish, fail, endingAfter, concluded]

theorem interrupt_eq (run : Run) :
    run.interrupt =
      .ended (endingAfter run.machine.position .interrupted run.console.flush.1)
        { run with console := run.console.flush.2 } := by
  rcases flushed : run.console.flush with ⟨_ | _, console⟩ <;>
    simp only [interrupt, fail, endingAfter, flushed]

end Endings

section Instructions

/-- What a failing command makes of a run at a position. -/
def errorAfter (position : Nat) (mode : Mode) : CommandFailure → RunError
  | .invalidInput => .invalidInput position mode
  | .device failure => .device position failure

theorem perform_of_error {failure : CommandFailure} {console : Console}
    (refused : run.console.supply options.mode options.prompt instruction
      run.machine.tape.current = (.error failure, console)) :
    run.perform options program instruction =
      .ended (.failed (errorAfter run.machine.position options.mode failure))
        { run with console := console } := by
  cases failure <;> simp only [perform, refused, fail, errorAfter]

theorem perform_of_stuck {supplied : UInt8} {console : Console} {reason : Stuck}
    (answered : run.console.supply options.mode options.prompt instruction
      run.machine.tape.current = (.ok supplied, console))
    (stuck : run.machine.step program instruction supplied = .error reason) :
    run.perform options program instruction =
      .stuck reason { run with console := console } := by
  simp only [perform, answered, stuck]

theorem perform_of_ok {supplied : UInt8} {console : Console} {machine : Machine}
    (answered : run.console.supply options.mode options.prompt instruction
      run.machine.tape.current = (.ok supplied, console))
    (stepped : run.machine.step program instruction supplied = .ok machine) :
    run.perform options program instruction = .running ⟨machine, run.steps + 1, console⟩ := by
  simp only [perform, answered, stepped]

/-- The row that a traced run writes for an instruction. -/
def rowText (run : Run) (options : Options) (instruction : Instruction) (machine : Machine) :
    String :=
  (Trace.Row.between (.ofMachine run.steps run.machine) instruction machine).describe options.mode

theorem trace_of_stuck {reason : Stuck}
    (stuck : run.machine.step program instruction 0 = .error reason) :
    run.trace options program instruction = .stuck reason run := by
  simp only [trace, stuck]

theorem trace_of_error {machine : Machine} {failure : DeviceFailure} {console : Console}
    (stepped : run.machine.step program instruction 0 = .ok machine)
    (refused : run.console.write (run.rowText options instruction machine) =
      (.error failure, console)) :
    run.trace options program instruction =
      .ended (.failed (.device run.machine.position failure)) ⟨machine, run.steps, console⟩ := by
  rw [rowText] at refused
  simp only [trace, stepped, refused]
  rfl

theorem trace_of_ok {machine : Machine} {console : Console}
    (stepped : run.machine.step program instruction 0 = .ok machine)
    (accepted : run.console.write (run.rowText options instruction machine) =
      (.ok (), console)) :
    run.trace options program instruction = .running ⟨machine, run.steps + 1, console⟩ := by
  rw [rowText] at accepted
  simp only [trace, stepped, accepted]

end Instructions

section Outcomes

/-- What can come of one step, with everything that is known then. -/
inductive Outcome (run : Run) (options : Options) (program : Program) : Progress → Prop
  | finished (past : program[run.machine.position]? = none) :
    Outcome run options program
      (.ended (endingAfter run.machine.position .completed run.console.conclude.1)
        { run with console := run.console.conclude.2 })
  | interrupted (instruction : Instruction)
    (here : program[run.machine.position]? = some instruction)
    (stopped : run.console.stopped = true) :
    Outcome run options program
      (.ended (endingAfter run.machine.position .interrupted run.console.flush.1)
        { run with console := run.console.flush.2 })
  | limited (instruction : Instruction) (limit : Nat)
    (here : program[run.machine.position]? = some instruction)
    (free : run.console.stopped = false)
    (reached : run.exhaustedLimit options = some limit) :
    Outcome run options program (.ended (.failed (.stepLimit limit)) run)
  | refused (instruction : Instruction) (failure : CommandFailure) (console : Console)
    (here : program[run.machine.position]? = some instruction)
    (untraced : options.traced = false)
    (answer : run.console.supply options.mode options.prompt instruction
      run.machine.tape.current = (.error failure, console)) :
    Outcome run options program
      (.ended (.failed (errorAfter run.machine.position options.mode failure))
        { run with console := console })
  | performed (instruction : Instruction) (supplied : UInt8) (console : Console)
    (machine : Machine)
    (here : program[run.machine.position]? = some instruction)
    (untraced : options.traced = false)
    (answer : run.console.supply options.mode options.prompt instruction
      run.machine.tape.current = (.ok supplied, console))
    (stepped : run.machine.step program instruction supplied = .ok machine) :
    Outcome run options program (.running ⟨machine, run.steps + 1, console⟩)
  | rowRefused (instruction : Instruction) (failure : DeviceFailure) (console : Console)
    (machine : Machine)
    (here : program[run.machine.position]? = some instruction)
    (traced : options.traced = true)
    (stepped : run.machine.step program instruction 0 = .ok machine)
    (answer : run.console.write (run.rowText options instruction machine) =
      (.error failure, console)) :
    Outcome run options program
      (.ended (.failed (.device run.machine.position failure)) ⟨machine, run.steps, console⟩)
  | rowWritten (instruction : Instruction) (console : Console) (machine : Machine)
    (here : program[run.machine.position]? = some instruction)
    (traced : options.traced = true)
    (stepped : run.machine.step program instruction 0 = .ok machine)
    (answer : run.console.write (run.rowText options instruction machine) = (.ok (), console)) :
    Outcome run options program (.running ⟨machine, run.steps + 1, console⟩)
  | stuck (instruction : Instruction) (supplied : UInt8) (console : Console) (reason : Stuck)
    (here : program[run.machine.position]? = some instruction)
    (untraced : options.traced = false)
    (answer : run.console.supply options.mode options.prompt instruction
      run.machine.tape.current = (.ok supplied, console))
    (stuck : run.machine.step program instruction supplied = .error reason) :
    Outcome run options program (.stuck reason { run with console := console })
  | rowStuck (instruction : Instruction) (reason : Stuck)
    (here : program[run.machine.position]? = some instruction)
    (traced : options.traced = true)
    (stuck : run.machine.step program instruction 0 = .error reason) :
    Outcome run options program (.stuck reason run)

theorem outcome_perform (here : program[run.machine.position]? = some instruction)
    (untraced : options.traced = false) :
    run.Outcome options program (run.perform options program instruction) := by
  rcases answer : run.console.supply options.mode options.prompt instruction
    run.machine.tape.current with ⟨failure | supplied, console⟩
  · rw [perform_of_error answer]
    exact .refused instruction failure console here untraced answer
  · cases stepped : run.machine.step program instruction supplied with
    | error reason =>
      rw [perform_of_stuck answer stepped]
      exact .stuck instruction supplied console reason here untraced answer stepped
    | ok machine =>
      rw [perform_of_ok answer stepped]
      exact .performed instruction supplied console machine here untraced answer stepped

theorem outcome_trace (here : program[run.machine.position]? = some instruction)
    (traced : options.traced = true) :
    run.Outcome options program (run.trace options program instruction) := by
  cases stepped : run.machine.step program instruction 0 with
  | error reason =>
    rw [trace_of_stuck stepped]
    exact .rowStuck instruction reason here traced stepped
  | ok machine =>
    rcases answer : run.console.write (run.rowText options instruction machine) with
      ⟨failure | _, console⟩
    · rw [trace_of_error stepped answer]
      exact .rowRefused instruction failure console machine here traced stepped answer
    · rw [trace_of_ok stepped answer]
      exact .rowWritten instruction console machine here traced stepped answer

/-- Nothing else can come of a step. -/
theorem outcome_advance (run : Run) (options : Options) (program : Program) :
    run.Outcome options program (run.advance options program) := by
  cases here : program[run.machine.position]? with
  | none =>
    rw [advance_of_none here, finish_eq]
    exact .finished here
  | some instruction =>
    cases free : run.console.stopped with
    | true =>
      rw [advance_of_stopped here free, interrupt_eq]
      exact .interrupted instruction here free
    | false =>
      cases room : run.exhaustedLimit options with
      | some limit =>
        rw [advance_of_limit here free room]
        exact .limited instruction limit here free room
      | none =>
        cases traced : options.traced with
        | true =>
          rw [advance_of_traced here free room traced]
          exact outcome_trace here traced
        | false =>
          rw [advance_of_untraced here free room traced]
          exact outcome_perform here traced

/-- A run that goes on has carried out the instruction at its position. -/
theorem advance_eq_running {next : Run} (goes : run.advance options program = .running next) :
    ∃ instruction supplied, program[run.machine.position]? = some instruction ∧
      run.machine.step program instruction supplied = .ok next.machine ∧
      next.steps = run.steps + 1 := by
  have outcome := outcome_advance run options program
  rw [goes] at outcome
  cases outcome with
  | performed instruction supplied console machine here _ _ stepped =>
    exact ⟨instruction, supplied, here, stepped, rfl⟩
  | rowWritten instruction console machine here _ stepped _ =>
    exact ⟨instruction, 0, here, stepped, rfl⟩

theorem steps_of_advance_ended {run final : Run} {how : Ending}
    (ends : run.advance options program = .ended how final) : final.steps = run.steps := by
  have outcome := outcome_advance run options program
  rw [ends] at outcome
  cases outcome <;> rfl

/-- A run completes only by having no instruction left. -/
theorem finished_of_completed {run final : Run}
    (completes : run.advance options program = .ended .completed final) :
    program[run.machine.position]? = none ∧
      final = { run with console := run.console.conclude.2 } := by
  have outcome := outcome_advance run options program
  rw [completes] at outcome
  generalize same : Ending.completed = how at outcome
  cases outcome with
  | finished past => exact ⟨past, rfl⟩
  | interrupted _ _ _ =>
    exact absurd same.symm (endingAfter_ne (by nofun) (by nofun) _)
  | limited => cases same
  | refused => cases same
  | rowRefused => cases same

end Outcomes
end Run

namespace Progress

/-! ## The end of a run -/

variable {options : Options} {program : Program}

/-- A run that is over after some instructions is over after more. -/
theorem ne_running_of_le {few many : Nat} {progress : Progress} (more : few ≤ many)
    (ends : ∀ run, iterate options program few progress ≠ running run) (run : Run) :
    iterate options program many progress ≠ running run := by
  intro goes
  have parts : few + (many - few) = many := by omega
  rw [← parts, iterate_add] at goes
  cases reached : iterate options program few progress with
  | running before => exact ends before reached
  | ended how final =>
    rw [reached, iterate_ended] at goes
    cases goes
  | stuck why final =>
    rw [reached, iterate_stuck] at goes
    cases goes

/-- A run has only one end. -/
theorem ended_unique {first second : Nat} {progress : Progress} {how how' : Ending}
    {final final' : Run}
    (one : iterate options program first progress = ended how final)
    (other : iterate options program second progress = ended how' final') :
    how = how' ∧ final = final' := by
  have same : ended how final = ended how' final' := by
    rw [← iterate_ended options program second how final, ← one, ← iterate_add, Nat.add_comm,
      iterate_add, other, iterate_ended]
  exact ⟨(ended.inj same).1, (ended.inj same).2⟩

/-- A run that ended after so many instructions needs one more step than
that, for its ending. -/
theorem iterate_of_ended {count : Nat} {run final : Run} {how : Ending}
    (ends : iterate options program count (running run) = ended how final) :
    run.steps ≤ final.steps ∧
      iterate options program (final.steps - run.steps + 1) (running run) = ended how final := by
  induction count generalizing run with
  | zero => cases ends
  | succ count ih =>
    simp only [iterate] at ends ⊢
    cases next : run.advance options program with
    | running after =>
      rw [next] at ends
      rcases Run.advance_eq_running next with ⟨_, _, _, _, counted⟩
      rcases ih ends with ⟨within, reached⟩
      have left : final.steps - run.steps = final.steps - after.steps + 1 := by omega
      constructor
      · omega
      · rw [left]
        exact reached
    | ended how' final' =>
      rw [next, iterate_ended] at ends
      cases ends
      have same := Run.steps_of_advance_ended next
      constructor
      · exact Nat.le_of_eq same.symm
      · exact iterate_ended options program _ how final
    | stuck why final' =>
      rw [next, iterate_stuck] at ends
      cases ends

end Progress
end RingTape
