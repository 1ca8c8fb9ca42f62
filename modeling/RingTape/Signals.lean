import RingTape.Run

namespace RingTape

/-!
# Runs among others

While a program runs, others may raise the stop flag of its console.  A run
looks at the flag only before an instruction, so all that matters of their
doings is before which instructions somebody raised it.  `Signals` records
just that, by the number of instructions carried out so far.

The definitions here follow a run under given signals and count the
instructions that it attempts.  A failing instruction is attempted, although
it is not carried out; ending is no instruction.  Without any signal a run
goes on as `Progress.iterate` says.
-/

/-- Before which instructions others raise the stop flag. -/
abbrev Signals := Nat → Bool

/-- Nobody raises the stop flag. -/
def Signals.silent : Signals := fun _ => false

namespace Run

/-- A run after the signals that arrive before its next instruction. -/
def signalled (run : Run) (signals : Signals) : Run :=
  { run with console :=
    { run.console with stopped := run.console.stopped || signals run.steps } }

/-- Whether an instruction is attempted next: one is left, and neither the
stop flag nor the step limit stands against it. -/
def attempts (run : Run) (options : Options) (program : Program) : Bool :=
  program[run.machine.position]?.isSome && !run.console.stopped &&
    (run.exhaustedLimit options).isNone

theorem attempts_iff {run : Run} {options : Options} {program : Program} :
    run.attempts options program = true ↔
      (∃ instruction, program[run.machine.position]? = some instruction) ∧
        run.console.stopped = false ∧ run.exhaustedLimit options = none := by
  simp only [attempts, Bool.and_eq_true, Option.isSome_iff_exists, Bool.not_eq_true',
    Option.isNone_iff_eq_none, and_assoc]

@[simp]
theorem signalled_silent (run : Run) : run.signalled .silent = run := by
  simp [signalled, Signals.silent]

@[simp]
theorem machine_signalled (run : Run) (signals : Signals) :
    (run.signalled signals).machine = run.machine := rfl

@[simp]
theorem steps_signalled (run : Run) (signals : Signals) :
    (run.signalled signals).steps = run.steps := rfl

/-- Signals that leave the flag down leave everything as it was. -/
theorem signalled_of_stopped {run : Run} {signals : Signals}
    (down : (run.signalled signals).console.stopped = false) :
    run.signalled signals = run := by
  have parts : (run.console.stopped || signals run.steps) = false := down
  have before : run.console.stopped = false := (Bool.or_eq_false_iff.mp parts).1
  rcases run with ⟨machine, steps, console⟩
  rcases console with ⟨input, output, prompts, emitted, stopAfter, stopped⟩
  simp only [signalled] at parts ⊢
  rw [parts]
  exact congrArg (fun flag => Run.mk machine steps
    ⟨input, output, prompts, emitted, stopAfter, flag⟩) before.symm

end Run

namespace Progress

variable (options : Options) (program : Program) (signals : Signals)

/-- Go on by at most this many instructions under the given signals. -/
def iterateAmid : Nat → Progress → Progress
  | count + 1, running run =>
    iterateAmid count ((run.signalled signals).advance options program)
  | _, progress => progress

/-- How many instructions are attempted on the way. -/
def attempted : Nat → Progress → Nat
  | count + 1, running run =>
    ((run.signalled signals).attempts options program).toNat +
      attempted count ((run.signalled signals).advance options program)
  | _, _ => 0

@[simp]
theorem iterateAmid_ended (count : Nat) (how : Ending) (run : Run) :
    iterateAmid options program signals count (ended how run) = ended how run := by
  cases count <;> rfl

@[simp]
theorem iterateAmid_stuck (count : Nat) (why : Stuck) (run : Run) :
    iterateAmid options program signals count (stuck why run) = stuck why run := by
  cases count <;> rfl

@[simp]
theorem attempted_ended (count : Nat) (how : Ending) (run : Run) :
    attempted options program signals count (ended how run) = 0 := by
  cases count <;> rfl

@[simp]
theorem attempted_stuck (count : Nat) (why : Stuck) (run : Run) :
    attempted options program signals count (stuck why run) = 0 := by
  cases count <;> rfl

/-- A run can be followed in two parts. -/
theorem iterateAmid_add (first second : Nat) (progress : Progress) :
    iterateAmid options program signals (first + second) progress =
      iterateAmid options program signals second
        (iterateAmid options program signals first progress) := by
  induction first generalizing progress with
  | zero =>
    rw [Nat.zero_add]
    cases progress <;> rfl
  | succ first ih =>
    rw [Nat.succ_add]
    cases progress with
    | running run => exact ih _
    | ended how run => simp
    | stuck why run => simp

/-- Without signals this is how a run goes on by itself. -/
@[simp]
theorem iterateAmid_silent (count : Nat) (progress : Progress) :
    iterateAmid options program .silent count progress =
      iterate options program count progress := by
  induction count generalizing progress with
  | zero => cases progress <;> rfl
  | succ count ih =>
    cases progress with
    | running run =>
      simp only [iterateAmid, iterate, Run.signalled_silent]
      exact ih _
    | ended how run => rfl
    | stuck why run => rfl

/-- What every instruction preserves, a run preserves. -/
theorem iterateAmid_preserves {motive : Progress → Prop}
    (step : ∀ run, motive (running run) →
      motive ((run.signalled signals).advance options program))
    (count : Nat) {progress : Progress} (start : motive progress) :
    motive (iterateAmid options program signals count progress) := by
  induction count generalizing progress with
  | zero => cases progress <;> exact start
  | succ count ih =>
    cases progress with
    | running run => exact ih (step run start)
    | ended how run => exact start
    | stuck why run => exact start

end Progress

namespace Program

/-- Run a program as `Program.execute` does, under the given signals. -/
def executeAmid (program : Program) (options : Options) (tape : Tape) (console : Console)
    (signals : Signals) (budget : Nat) : Progress :=
  Progress.iterateAmid options program signals budget (Run.begin options tape console)

/-- How many instructions such a run attempts within a budget. -/
def attempted (program : Program) (options : Options) (tape : Tape) (console : Console)
    (signals : Signals) (budget : Nat) : Nat :=
  Progress.attempted options program signals budget (Run.begin options tape console)

theorem executeAmid_succ (program : Program) (options : Options) (tape : Tape)
    (console : Console) (signals : Signals) (budget : Nat) :
    program.executeAmid options tape console signals (budget + 1) =
      Progress.iterateAmid options program signals 1
        (program.executeAmid options tape console signals budget) :=
  Progress.iterateAmid_add options program signals budget 1 _

@[simp]
theorem executeAmid_silent (program : Program) (options : Options) (tape : Tape)
    (console : Console) (budget : Nat) :
    program.executeAmid options tape console .silent budget =
      program.execute options tape console budget :=
  Progress.iterateAmid_silent options program budget _

end Program
end RingTape
