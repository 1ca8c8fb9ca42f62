import RingTape.Run

namespace RingTape

/-!
# Remarks

Besides its output a run has things to say.  A prompt, if there is one,
stands before every reading.  What the run does may also be logged: each
instruction once it took effect, and how the run ended, unless it failed.
Further events are those of the command around a run.

A log is a function from events to lines, and it may be off.  Which events
it drops and how it words the others is its own affair.  The time of an event
is left out, so an event has the same line whenever it happens.
-/

/-- Something that is worth a line of the log. -/
inductive LogEvent where
  /-- There is a settings file. -/
  | loading
  /-- The brackets of a text match. -/
  | parsed (instructions lines : Nat)
  /-- A program is about to run. -/
  | starting (length : Nat) (mode : Mode) (traced : Bool)
  /-- An instruction took effect.  The numbers are those before it. -/
  | step (steps position pointer : Nat) (cell : UInt8) (instruction : Instruction)
  /-- A run noticed its stop flag. -/
  | stopped (position steps : Nat)
  | completed (steps pointer : Nat)
  /-- Input was refused. -/
  | rejected (error : RunError)
  deriving DecidableEq, Repr

/-- What is said besides output and reports. -/
inductive Remark where
  | prompt (text : String)
  | event (event : LogEvent)
  deriving DecidableEq, Repr

/-- The log of a process. -/
inductive Log where
  | off
  | on (line : LogEvent → String)

namespace Log

/-- What the log holds of an event. -/
def line : Log → LogEvent → String
  | off, _ => ""
  | on line, event => line event

/-- A remark in words.  A prompt is no matter of the log. -/
def word (log : Log) : Remark → String
  | .prompt text => text
  | .event event => log.line event

/-- Remarks in words, one after another. -/
def text (log : Log) (remarks : List Remark) : String :=
  String.join (remarks.map log.word)

/-- Whether a run has nothing to say, whatever it does. -/
def isSilent (log : Log) (options : Options) : Bool :=
  match log with
  | off => options.prompt.isNone
  | on _ => false

end Log

namespace Run

/-- What a run asks for before its next instruction.  The prompt is shown
once all output is visible. -/
def asks (run : Run) (options : Options) (program : Program) : List Remark :=
  if run.takesRecord options program then (options.prompt.map Remark.prompt).toList else []

/-- What is logged when a run goes on by one instruction, or ends. -/
def logged (run : Run) (options : Options) (program : Program) : List LogEvent :=
  let tape := run.machine.tape
  match program[run.machine.position]? with
  | none =>
    match run.console.conclude.1 with
    | .ok () => [.completed run.steps tape.pointer]
    | .error _ => []
  | some instruction =>
    let step := .step run.steps run.machine.position tape.pointer tape.current instruction
    if run.console.stopped then
      [.stopped run.machine.position run.steps]
    else if (run.exhaustedLimit options).isSome then
      []
    else if options.traced then
      [step]
    else
      match (run.console.supply options.mode options.prompt instruction tape.current).1 with
      | .ok _ => [step]
      | .error _ => []

/-- What a run says when it goes on by one instruction, or ends. -/
def remarks (run : Run) (options : Options) (program : Program) : List Remark :=
  run.asks options program ++ (run.logged options program).map .event

end Run

namespace Progress

/-- What a run says while it goes on by at most this many instructions, but
not from where it is to be held up. -/
def remarksUntil (options : Options) (program : Program) (holds : Run → Bool) :
    Nat → Progress → List Remark
  | count + 1, running run =>
    if holds run then
      []
    else
      run.remarks options program ++
        remarksUntil options program holds count (run.advance options program)
  | _, _ => []

/-- What a run says while it goes on by at most this many instructions. -/
def remarks (options : Options) (program : Program) (count : Nat) (progress : Progress) :
    List Remark :=
  remarksUntil options program (fun _ => false) count progress

/-- The words of a run while it is followed.  A run that has nothing to say
is not asked. -/
def saidUntil (log : Log) (options : Options) (program : Program) (holds : Run → Bool)
    (count : Nat) (progress : Progress) : String :=
  if log.isSilent options then
    ""
  else
    log.text (remarksUntil options program holds count progress)

end Progress

/-- What a program says when it is executed for at most `budget`
instructions, its ending included. -/
def Program.remarks (program : Program) (options : Options) (tape : Tape) (console : Console)
    (budget : Nat) : List Remark :=
  Progress.remarks options program budget (Run.begin options tape console)

end RingTape
