import RingTape.CommandLine.Job
import RingTape.CommandLine.Watch

namespace RingTape
namespace CommandLine

/-!
# What a command answers

A command answers with an exit code, with what the run wrote, and with a
report.  The answer to a verdict is fixed by the verdict alone.  What else
appears where the report does, before it, are remarks.

How long a run takes on a clock is not known here.  The circumstances say how
many instructions are done before a deadline is seen to have passed, and a run
that is still under way then has outlasted it.  A run without a timeout is
followed as far as they ask for.  A run that waits for input which never comes
waits until it is interrupted or the deadline passes.  Without either there is
no answer.
-/

/-- What a command leaves behind. -/
structure Answer where
  code : Nat
  output : List UInt8
  /-- What was said before the report, to the same place. -/
  remarks : String := ""
  report : String
  deriving DecidableEq, Repr

/-- What happens around a command while it runs. -/
structure Circumstances where
  /-- What can be read. -/
  input : List UInt8 := []
  /-- How a reader of more than that fails, if it does. -/
  inputFailure : Option InputFailure := none
  /-- Whether a reader of more than that waits, instead of meeting the end. -/
  inputOpen : Bool := false
  /-- The user interrupts once this many bytes were written. -/
  interruptAfter : Option Nat := none
  /-- The number of instructions that are done before the interrupt arrives. -/
  interruptDelay : Nat := 250000
  /-- The number of instructions that are done before a deadline after so many
  milliseconds is seen to have passed.  Unless there is reason for another
  pace, this is ten for each microsecond, and the clock is not looked at in the
  first 25 milliseconds. -/
  allowance : Nat → Nat := fun time => (time + 25) * 10000
  /-- The number of instructions that a run without a timeout is followed
  for. -/
  patience : Nat

/-- What a reader will meet. -/
def Circumstances.script (circumstances : Circumstances) : InputScript :=
  InputScript.ofBytes circumstances.input ++ (circumstances.inputFailure.map .failure).toList

namespace Verdict

/-- The exit code that goes with a verdict. -/
def code : Verdict → Nat
  | result .completed | result .interrupted | interrupted => 0
  | result (.failed _) | timedOut | lost => 1

/-- What a verdict reports, in the name of the program. -/
def report (program : String) (timeout : Option Nat) (palette : Palette) : Verdict → String
  | result .completed => ""
  | result .interrupted | interrupted =>
    "\n" ++ palette.notice.paint "Execution interrupted" ++ "\n"
  | result (.failed error) =>
    match error with
    | .invalidInput _ _ => palette.error.paint error.message ++ "\n"
    | .stepLimit _ => error.message ++ "\n"
    | .device _ _ => program ++ ": " ++ palette.error.paint error.message ++ "\n"
  | timedOut =>
    "Execution aborted: wall-clock timeout exceeded (" ++ toString (timeout.getD 0) ++ " ms)\n"
  | lost => program ++ ": interpreter thread exited unexpectedly\n"

/-- What is said of a verdict before its report. -/
def remarks : Verdict → List Remark
  | result (.failed (.invalidInput position mode)) =>
    [.event (.rejected (.invalidInput position mode))]
  | _ => []

end Verdict

namespace Job

/-- The instructions granted to a run. -/
def grant (job : Job) (circumstances : Circumstances) : Nat :=
  match job.timeout with
  | none => circumstances.patience
  | some time => circumstances.allowance time

/-- The console of a command in these circumstances. -/
def console (circumstances : Circumstances) : Console :=
  { input := circumstances.script }

/-- Whether the user has reason to interrupt. -/
def provoked (circumstances : Circumstances) (run : Run) : Bool :=
  match circumstances.interruptAfter with
  | none => false
  | some count => count ≤ run.console.output.accepted.size

/-- The run of a job, as far as it gets: up to the moment of the interrupt
and through the time until that arrives, or through its whole grant. -/
def pursuit (job : Job) (surroundings : Surroundings) (circumstances : Circumstances) : Watch :=
  let pursue := Watch.pursue surroundings.log job.options job.program
  let waits := Run.waits job.options job.program circumstances.inputOpen
  let begun : Watch := { progress := Run.begin job.options job.tape (console circumstances) }
  let provoked := pursue (fun run => waits run || provoked circumstances run)
    (job.grant circumstances) begun
  let time := if circumstances.interruptAfter.isSome then circumstances.interruptDelay else 0
  pursue waits time provoked

/-- What happens after a run got as far as it gets. -/
def sequel (job : Job) (circumstances : Circumstances) (progress : Progress) : List Event :=
  match progress with
  | .ended _ _ | .stuck _ _ => [.deliver, .look]
  | .running run =>
    if provoked circumstances run then
      [.interrupt, .look, .look]
    else if job.timeout.isSome then
      [.expire, .look, .look, .look, .look]
    else
      []

/-- What the command of a job reports by a verdict. -/
def wording (job : Job) (surroundings : Surroundings) (verdict : Verdict) : String :=
  verdict.report surroundings.program job.timeout (Palette.forColor job.color)

/-- The answer of the command of a job, if it has made up its mind. -/
def answerOf (job : Job) (surroundings : Surroundings) (watch : Watch) : Option Answer :=
  watch.verdict?.map fun verdict => {
    code := verdict.code
    output := watch.progress.written.toList
    remarks := surroundings.log.text (job.opening surroundings) ++ watch.said ++
      surroundings.log.text verdict.remarks
    report := job.wording surroundings verdict }

/-- The answer of a command that has a job, if it ever comes. -/
def answer (job : Job) (surroundings : Surroundings) (circumstances : Circumstances) :
    Option Answer :=
  let pursued := job.pursuit surroundings circumstances
  job.answerOf surroundings
    (Watch.follow surroundings.log job.options job.program job.timeout pursued
      (job.sequel circumstances pursued.progress))

/-- The answer where nobody could be notified of an interrupt.  Then the job
is not begun. -/
def unhandled (job : Job) (surroundings : Surroundings) (reason : String) : Answer where
  code := 1
  output := []
  remarks := surroundings.log.text (job.opening surroundings)
  report := surroundings.complaint ("failed to set ctrl+c handler: " ++ reason)

end Job

/-- The answer of a refused command. -/
def Refusal.answer (refusal : Refusal) (surroundings : Surroundings) : Answer where
  code := refusal.code
  output := []
  remarks := surroundings.log.text (refusal.remarks surroundings)
  report := refusal.report surroundings

/-- The answer of a command with this argument list, if it ever comes. -/
def respond (surroundings : Surroundings) (circumstances : Circumstances) (list : List String) :
    Option Answer :=
  match Job.ofList surroundings list with
  | .error refusal => some (refusal.answer surroundings)
  | .ok job =>
    match surroundings.handlerFailure with
    | some reason => some (job.unhandled surroundings reason)
    | none => job.answer surroundings circumstances

end CommandLine
end RingTape
