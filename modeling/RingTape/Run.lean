import RingTape.Console
import RingTape.Trace

namespace RingTape

/-!
# Runs

A run joins a machine to a console.  It goes on one instruction at a time.
Before an instruction the stop flag is looked at first and the step limit
second; neither is looked at after the last instruction.  A failing
instruction ends the run and leaves the tape as it was.

A traced run moves the same machine.  It asks nothing of the console but to
take the rows of the table: output is withheld and input is zero.  A row is
written after the instruction took effect.

A run need not end.  `Progress.iterate` follows it for a number of steps and
keeps a run that is still under way apart from one that has ended.
-/

/-- What stays fixed during a run. -/
structure Options where
  mode : Mode := .character
  prompt : Option String := none
  stepLimit : Option Nat := none
  traced : Bool := false
  deriving DecidableEq, Repr

/-- Why a run failed. -/
inductive RunError where
  /-- Input at this position denotes no cell. -/
  | invalidInput (position : Nat) (mode : Mode)
  /-- A device failed at this position. -/
  | device (position : Nat) (failure : DeviceFailure)
  /-- The limit was reached before the program ended. -/
  | stepLimit (limit : Nat)
  deriving DecidableEq, Repr

/-- The wording of a run error. -/
def RunError.message : RunError → String
  | invalidInput _ _ => "Invalid input given, terminated"
  | device position failure =>
    "I/O error at instruction " ++ toString position ++ ": " ++ failure.message
  | stepLimit limit => "Execution aborted: step limit exceeded (" ++ toString limit ++ ")"

/-- How a run ended. -/
inductive Ending where
  | completed
  | interrupted
  | failed (error : RunError)
  deriving DecidableEq, Repr

/-- A run between two instructions. -/
structure Run where
  machine : Machine
  /-- The instructions carried out so far. -/
  steps : Nat
  console : Console

/-- How far a run has come. -/
inductive Progress where
  | running (run : Run)
  | ended (ending : Ending) (run : Run)
  /-- The program has unmatched brackets. -/
  | stuck (reason : Stuck) (run : Run)

namespace Run

/-- End a run with a device failure at a position. -/
def fail (run : Run) (position : Nat) (failure : DeviceFailure) : Progress :=
  .ended (.failed (.device position failure)) run

/-- End a run whose instructions are used up. -/
def finish (run : Run) : Progress :=
  match run.console.conclude with
  | (.error failure, console) =>
    { run with console := console }.fail run.machine.position failure
  | (.ok (), console) => .ended .completed { run with console := console }

/-- End a run whose stop flag was raised. -/
def interrupt (run : Run) : Progress :=
  match run.console.flush with
  | (.error failure, console) =>
    { run with console := console }.fail run.machine.position failure
  | (.ok (), console) => .ended .interrupted { run with console := console }

/-- The limit, if it leaves no room for another step. -/
def exhaustedLimit (run : Run) (options : Options) : Option Nat :=
  options.stepLimit.filter (· ≤ run.steps)

/-- Carry out one instruction.  The console comes first, because it may
supply a value or fail; in both cases the tape is still untouched. -/
def perform (run : Run) (options : Options) (program : Program) (instruction : Instruction) :
    Progress :=
  match run with
  | ⟨machine, steps, console⟩ =>
    match console.supply options.mode options.prompt instruction machine.tape.current with
    | (.error .invalidInput, console) =>
      .ended (.failed (.invalidInput machine.position options.mode)) ⟨machine, steps, console⟩
    | (.error (.device failure), console) =>
      Run.fail ⟨machine, steps, console⟩ machine.position failure
    | (.ok supplied, console) =>
      match machine.step program instruction supplied with
      | .error reason => .stuck reason ⟨machine, steps, console⟩
      | .ok machine => .running ⟨machine, steps + 1, console⟩

/-- Carry out one instruction without the console and write its row.  Should
the row not be accepted, the instruction has still taken effect. -/
def trace (run : Run) (options : Options) (program : Program) (instruction : Instruction) :
    Progress :=
  match run with
  | ⟨machine, steps, console⟩ =>
    let before := Trace.Snapshot.ofMachine steps machine
    match machine.step program instruction 0 with
    | .error reason => .stuck reason ⟨machine, steps, console⟩
    | .ok machine =>
      let row := Trace.Row.between before instruction machine
      match console.write (row.describe options.mode) with
      | (.error failure, console) =>
        Run.fail ⟨machine, steps, console⟩ before.position failure
      | (.ok (), console) => .running ⟨machine, steps + 1, console⟩

/-- Go on by one instruction, or end. -/
def advance (run : Run) (options : Options) (program : Program) : Progress :=
  match program[run.machine.position]? with
  | none => run.finish
  | some instruction =>
    if run.console.stopped then
      run.interrupt
    else
      match run.exhaustedLimit options with
      | some limit => .ended (.failed (.stepLimit limit)) run
      | none =>
        if options.traced then
          run.trace options program instruction
        else
          run.perform options program instruction

/-- Whether the next instruction is going to read a record. -/
def awaitsInput (run : Run) (options : Options) (program : Program) : Bool :=
  !options.traced && !run.console.stopped && (run.exhaustedLimit options).isNone &&
    program[run.machine.position]? == some (.command .input)

/-- Whether the next instruction takes a record: it is a reading that is
attempted, and the flush in front of it succeeds. -/
def takesRecord (run : Run) (options : Options) (program : Program) : Bool :=
  run.awaitsInput options program && run.console.flush.1.isOk

/-- Whether a run has to wait: it is about to read, and its script does not
hold the whole record while more may still come. -/
def waits (options : Options) (program : Program) (inputOpen : Bool) (run : Run) : Bool :=
  inputOpen && run.awaitsInput options program && !run.console.input.holdsRecord

/-- A run before its first instruction.  A traced run writes the header of
its table first. -/
def begin (options : Options) (tape : Tape) (console : Console) : Progress :=
  let console := { console with emitted := 0 }
  if options.traced then
    match console.write Trace.header with
    | (.error failure, console) => Run.fail ⟨.load tape, 0, console⟩ 0 failure
    | (.ok (), console) => .running ⟨.load tape, 0, console⟩
  else
    .running ⟨.load tape, 0, console⟩

end Run

namespace Progress

/-- Go on by one instruction, unless the run is over. -/
def advance (progress : Progress) (options : Options) (program : Program) : Progress :=
  match progress with
  | running run => run.advance options program
  | ended how run => ended how run
  | stuck why run => stuck why run

/-- Go on by at most this many instructions. -/
def iterate (options : Options) (program : Program) : Nat → Progress → Progress
  | count + 1, running run => iterate options program count (run.advance options program)
  | _, progress => progress

@[simp]
theorem iterate_zero (options : Options) (program : Program) (progress : Progress) :
    iterate options program 0 progress = progress := by
  cases progress <;> rfl

@[simp]
theorem iterate_ended (options : Options) (program : Program) (count : Nat) (how : Ending)
    (run : Run) : iterate options program count (ended how run) = ended how run := by
  cases count <;> rfl

@[simp]
theorem iterate_stuck (options : Options) (program : Program) (count : Nat) (why : Stuck)
    (run : Run) : iterate options program count (stuck why run) = stuck why run := by
  cases count <;> rfl

theorem iterate_succ (options : Options) (program : Program) (count : Nat)
    (progress : Progress) :
    iterate options program (count + 1) progress =
      iterate options program count (progress.advance options program) := by
  cases progress with
  | running run => rfl
  | ended how run => simp [advance]
  | stuck why run => simp [advance]

/-- A run can be followed in two parts. -/
theorem iterate_add (options : Options) (program : Program) (first second : Nat)
    (progress : Progress) :
    iterate options program (first + second) progress =
      iterate options program second (iterate options program first progress) := by
  induction first generalizing progress with
  | zero => rw [Nat.zero_add, iterate_zero]
  | succ first ih => rw [Nat.succ_add, iterate_succ, iterate_succ, ih]

/-- Go on by at most this many instructions, but not from a run that is to
be held up. -/
def iterateUntil (options : Options) (program : Program) (holds : Run → Bool) :
    Nat → Progress → Progress
  | count + 1, running run =>
    if holds run then running run
    else iterateUntil options program holds count (run.advance options program)
  | _, progress => progress

/-- The run, wherever it stands. -/
def run : Progress → Run
  | running run | ended _ run | stuck _ run => run

/-- The bytes written so far. -/
def written (progress : Progress) : Array UInt8 :=
  progress.run.console.output.accepted

/-- Raise the stop flag of the console. -/
def raiseStop : Progress → Progress
  | running run => running { run with console := { run.console with stopped := true } }
  | ended how run => ended how { run with console := { run.console with stopped := true } }
  | stuck why run => stuck why { run with console := { run.console with stopped := true } }

end Progress

/-- Run a program on a tape and a console for at most `budget` instructions,
its ending included. -/
def Program.execute (program : Program) (options : Options) (tape : Tape) (console : Console)
    (budget : Nat) : Progress :=
  Progress.iterate options program budget (Run.begin options tape console)

end RingTape
