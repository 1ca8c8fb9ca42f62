import RingTape.Proofs.Lockstep
import RingTape.Proofs.OpenLoops
import RingTape.Proofs.StepLimit

namespace RingTape

/-!
# Stopping a run at any moment

The stop flag of a run may go up between any two of its instructions, for a
reason that the run does not know.  A run whose flag has gone up either
stands as the undisturbed run once stood, but for the flag, or it has looked
at the flag in front of an instruction and stopped there
(`Progress.Trails`).  No step and no further raising leads out of this.

So the output of a stopped run is a beginning of the undisturbed output, also
where stopping it failed, and only a raised flag makes a run end as
interrupted.  Nothing is assumed of the sink here.
-/

namespace Console

/-- The console with its stop flag up. -/
def raised (console : Console) : Console := { console with stopped := true }

/-- Only who looks at the flag notices that it is up. -/
theorem slight_raised : Slight raised where
  emitted _ := rfl
  recount _ _ := rfl
  flush _ := rfl
  ask _ prompt := by
    cases prompt <;> rfl
  receive _ _ := rfl

theorem write_raised (console : Console) (text : String) :
    console.raised.write text = (console.write text).map id raised := by
  simp only [write, raised, Bool.true_or]
  rfl

end Console

namespace Run

variable {run : Run} {options : Options} {program : Program}

/-- A flag that goes up behind the last instruction comes too late. -/
theorem advance_raised_of_none (past : program[run.machine.position]? = none) :
    (run.onConsole Console.raised).advance options program =
      (run.advance options program).onConsole Console.raised := by
  refine advance_of_passes (passes_of_written Console.slight_raised ?_
    (Console.write_raised _ _))
  intro instruction here
  cases past.symm.trans here

/-- In front of an instruction the run stops, and only flushes. -/
theorem advance_raised_of_some {instruction : Instruction}
    (here : program[run.machine.position]? = some instruction) :
    (run.onConsole Console.raised).advance options program =
      .ended (endingAfter run.machine.position .interrupted run.console.flush.1)
        { run with console := run.console.raised.flush.2 } := by
  have there : program[(run.onConsole Console.raised).machine.position]? = some instruction :=
    here
  rw [advance_of_stopped there rfl, interrupt_eq]
  rfl

theorem begin_ne_interrupted (options : Options) (tape : Tape) (console : Console)
    (final : Run) : begin options tape console ≠ .ended .interrupted final := by
  apply begin_cases (motive := (· ≠ .ended .interrupted final)) <;> nofun

/-- Only a raised flag lets a step end as interrupted. -/
theorem stopped_of_advance_interrupted {final : Run}
    (ends : run.advance options program = .ended .interrupted final) :
    run.console.stopped = true := by
  have outcome := outcome_advance run options program
  rw [ends] at outcome
  generalize same : Ending.interrupted = how at outcome
  cases outcome with
  | finished _ => exact absurd same.symm (endingAfter_ne (by nofun) (by nofun) _)
  | interrupted _ _ stopped => exact stopped
  | limited => cases same
  | refused => cases same
  | rowRefused => cases same

end Run

namespace Progress

theorem advance_of_over {options : Options} {program : Program} {progress : Progress}
    (stops : ∀ run, progress ≠ running run) : progress.advance options program = progress := by
  cases progress with
  | running run => exact absurd rfl (stops run)
  | ended how final => rfl
  | stuck why final => rfl

theorem raiseStop_eq (progress : Progress) :
    progress.raiseStop = progress.onConsole Console.raised := by
  cases progress <;> rfl

@[simp]
theorem run_raiseStop (progress : Progress) :
    progress.raiseStop.run.console.stopped = true := by
  cases progress <;> rfl

@[simp]
theorem written_raiseStop (progress : Progress) :
    progress.raiseStop.written = progress.written := by
  cases progress <;> rfl

@[simp]
theorem raiseStop_raiseStop (progress : Progress) :
    progress.raiseStop.raiseStop = progress.raiseStop := by
  cases progress <;> rfl

/-- How a run that others may stop stands to the undisturbed run, given by
its moments, if it has had time for so many instructions. -/
inductive Trails (undisturbed : Nat → Progress) (worked : Nat) : Progress → Prop where
  /-- The flag is down. -/
  | free : Trails undisturbed worked (undisturbed worked)
  /-- The flag went up and has not been looked at. -/
  | raised (moment : Nat) (past : moment ≤ worked) :
    Trails undisturbed worked (undisturbed moment).raiseStop
  /-- The run stopped in front of an instruction. -/
  | stopped (moment : Nat) (past : moment ≤ worked) (run : Run) (how : Ending) (final : Run)
    (goes : undisturbed moment = running run)
    (written : final.console.output.accepted = run.console.output.accepted)
    (flag : final.console.stopped = true) :
    Trails undisturbed worked (ended how final)

end Progress

namespace Program

open Progress (running ended)

variable {program : Program} {options : Options} {tape : Tape} {console : Console}

/-- A step of a run is its next moment. -/
theorem advance_execute (moment : Nat) :
    (program.execute options tape console moment).advance options program =
      program.execute options tape console (moment + 1) := by
  by_cases going : ∃ run, program.execute options tape console moment = running run
  · rcases going with ⟨run, reached⟩
    rw [execute_succ_of_running reached, reached]
    rfl
  · have stops := not_exists.mp going
    rw [execute_succ_of_over stops, Progress.advance_of_over stops]

theorem prefix_of_execute {few many : Nat} (more : few ≤ many) :
    (program.execute options tape console few).written.toList <+:
      (program.execute options tape console many).written.toList := by
  rw [← executeAmid_silent, ← executeAmid_silent]
  exact prefix_of_executeAmid more

theorem execute_ne_stuck (balanced : Balanced program.toList) (budget : Nat) (why : Stuck)
    (run : Run) : program.execute options tape console budget ≠ .stuck why run := by
  rw [← executeAmid_silent]
  exact executeAmid_ne_stuck balanced _ _ _ _ _ _ _

/-- Nobody interrupts a run whose flag nothing raises. -/
theorem execute_ne_interrupted (calm : console.Unstoppable) (budget : Nat) (final : Run) :
    program.execute options tape console budget ≠ ended .interrupted final := by
  intro ends
  rw [← executeAmid_silent] at ends
  rcases last_moment ends with begun | ⟨run, -, -, goes, last⟩
  · exact Run.begin_ne_interrupted options tape console final begun
  · rw [executeAmid_silent] at goes
    rw [Run.signalled_silent] at last
    have up := Run.stopped_of_advance_interrupted last
    rw [(Console.law_unstoppable.of_running calm goes).stopped] at up
    cases up

end Program

namespace Progress.Trails

section General

variable {undisturbed : Nat → Progress} {worked : Nat} {progress : Progress}

/-- The flag can go up at any time. -/
theorem raiseStop (trails : progress.Trails undisturbed worked) :
    progress.raiseStop.Trails undisturbed worked := by
  cases trails with
  | free => exact .raised worked (Nat.le_refl _)
  | raised moment past =>
    rw [raiseStop_raiseStop]
    exact .raised moment past
  | stopped moment past run how final goes written flag =>
    exact .stopped moment past run how _ goes written rfl

theorem eq_of_down (trails : progress.Trails undisturbed worked)
    (down : progress.run.console.stopped = false) : progress = undisturbed worked := by
  cases trails with
  | free => rfl
  | raised moment past =>
    rw [run_raiseStop] at down
    cases down
  | stopped moment past run how final goes written flag => cases flag.symm.trans down

end General

section Execution

variable {program : Program} {options : Options} {tape : Tape} {console : Console}
  {worked : Nat} {progress : Progress}

theorem begin (program : Program) (options : Options) (tape : Tape) (console : Console) :
    (Run.begin options tape console).Trails (program.execute options tape console) 0 := by
  rw [← Program.execute_zero program]
  exact .free

/-- A step leads the run on, or stops it. -/
theorem advance (trails : progress.Trails (program.execute options tape console) worked) :
    (progress.advance options program).Trails (program.execute options tape console)
      (worked + 1) := by
  cases trails with
  | free =>
    rw [Program.advance_execute]
    exact .free
  | raised moment past =>
    by_cases going : ∃ run, program.execute options tape console moment = running run
    · rcases going with ⟨run, reached⟩
      rw [raiseStop_eq, reached, onConsole, Progress.advance]
      cases here : program[run.machine.position]? with
      | none =>
        have late := @Run.advance_raised_of_none run options program here
        rw [← Program.execute_succ_of_running reached, ← raiseStop_eq] at late
        rw [late]
        exact .raised (moment + 1) (Nat.succ_le_succ past)
      | some instruction =>
        rw [Run.advance_raised_of_some here]
        exact .stopped moment (Nat.le_succ_of_le past) run _ _ reached
          (Console.accepted_flush _) rfl
    · have still := @Program.onConsole_ne_running Console.raised _ (not_exists.mp going)
      rw [raiseStop_eq, advance_of_over still, ← raiseStop_eq]
      exact .raised moment (Nat.le_succ_of_le past)
  | stopped moment past run how final goes written flag =>
    exact .stopped moment (Nat.le_succ_of_le past) run how final goes written flag

/-- What was written is a beginning of what the undisturbed run writes. -/
theorem written_prefix (trails : progress.Trails (program.execute options tape console) worked)
    {budget : Nat} (enough : worked ≤ budget) :
    progress.written.toList <+:
      (program.execute options tape console budget).written.toList := by
  cases trails with
  | free => exact Program.prefix_of_execute enough
  | raised moment past =>
    rw [written_raiseStop]
    exact Program.prefix_of_execute (Nat.le_trans past enough)
  | stopped moment past run how final goes written flag =>
    have same : final.console.output.accepted =
        (program.execute options tape console moment).written := by
      rw [written, goes]
      rfl
    rw [Progress.written, Progress.run, same]
    exact Program.prefix_of_execute (Nat.le_trans past enough)

theorem ne_stuck (trails : progress.Trails (program.execute options tape console) worked)
    (balanced : Program.Balanced program.toList) (why : Stuck) (run : Run) :
    progress ≠ stuck why run := by
  cases trails with
  | free => exact Program.execute_ne_stuck balanced worked why run
  | raised moment past =>
    cases reached : program.execute options tape console moment with
    | running => nofun
    | ended => nofun
    | stuck => exact absurd reached (Program.execute_ne_stuck balanced moment _ _)
  | stopped => nofun

variable (calm : console.Unstoppable)
include calm

/-- A run ends as interrupted with its flag up. -/
theorem stopped_of_interrupted
    (trails : progress.Trails (program.execute options tape console) worked) {final : Run}
    (ends : progress = ended .interrupted final) :
    progress.run.console.stopped = true := by
  cases trails with
  | free => exact absurd ends (Program.execute_ne_interrupted calm worked final)
  | raised moment past => exact run_raiseStop _
  | stopped moment past run how final goes written flag => exact flag

/-- No step raises the flag. -/
theorem stopped_of_advance
    (trails : progress.Trails (program.execute options tape console) worked)
    (up : (progress.advance options program).run.console.stopped = true) :
    progress.run.console.stopped = true := by
  cases trails with
  | free =>
    rw [Program.advance_execute,
      (Console.law_unstoppable.of_execute calm program options tape (worked + 1)).stopped] at up
    cases up
  | raised moment past => exact run_raiseStop _
  | stopped moment past run how final goes written flag => exact flag

end Execution
end Progress.Trails
end RingTape
