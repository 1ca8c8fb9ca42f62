import RingTape.Remarks

namespace RingTape
namespace CommandLine

/-!
# Watching a run

A run works on its own while the command waits for its result.  The two
share the stop flag and a mailbox.  From time to time the waiting side gives
up waiting for a moment and looks around: at the flag first, and if that is
down, at the clock.  A raised flag means that the user interrupted, so the
command reports that at once; a deadline that has passed means that the run
is given up, and only then does the waiting side raise the flag itself.

Everything that can happen is an `Event`, and `Watch.handle` says what comes
of it.  No order is prescribed: any list of events is a possible course of
things, however unfair.  The waiting side moves in steps so small that an
event of any other party can fall between two of them.  What the run says on
its way is kept; the report on it is not among that.
-/

/-- What the command has to say about a run. -/
inductive Verdict where
  /-- The run handed over how it ended. -/
  | result (ending : Ending)
  | interrupted
  | timedOut
  /-- The run broke down without a result. -/
  | lost
  deriving DecidableEq, Repr

/-- Where the waiting side stands. -/
inductive Stage where
  /-- Waiting for the mailbox. -/
  | waiting
  /-- The mailbox stayed empty; the flag is looked at next. -/
  | beforeFlag
  /-- The flag was down; the clock is looked at next. -/
  | beforeClock
  /-- The deadline had passed; the flag is raised next. -/
  | givingUp
  | decided (verdict : Verdict)
  deriving DecidableEq, Repr

/-- Something that one of the parties does. -/
inductive Event where
  /-- The run goes on by one instruction, or ends. -/
  | work
  /-- The run puts its result into the mailbox. -/
  | deliver
  /-- The user interrupts. -/
  | interrupt
  /-- The deadline passes. -/
  | expire
  /-- The waiting side makes one step. -/
  | look
  deriving DecidableEq, Repr

/-- A run and the command that waits for it. -/
structure Watch where
  progress : Progress
  /-- What the run has said. -/
  said : String := ""
  /-- What is in the mailbox. -/
  mailbox : Option Verdict := none
  /-- Whether the user has interrupted. -/
  interrupted : Bool := false
  /-- Whether the deadline has passed. -/
  expired : Bool := false
  stage : Stage := .waiting

namespace Watch

/-- What a run that is over puts into the mailbox. -/
def resultOf : Progress → Option Verdict
  | .running _ => none
  | .ended how _ => some (.result how)
  | .stuck _ _ => some .lost

/-- One step of the waiting side. -/
def look (watch : Watch) (timeout : Option Nat) : Watch :=
  match watch.stage with
  | .waiting =>
    match watch.mailbox with
    | some verdict => { watch with stage := .decided verdict }
    | none => { watch with stage := .beforeFlag }
  | .beforeFlag =>
    if watch.progress.run.console.stopped then
      { watch with stage := .decided .interrupted }
    else
      { watch with stage := .beforeClock }
  | .beforeClock =>
    if timeout.isSome && watch.expired then
      { watch with stage := .givingUp }
    else
      { watch with stage := .waiting }
  | .givingUp =>
    { watch with progress := watch.progress.raiseStop, stage := .decided .timedOut }
  | .decided _ => watch

/-- What comes of an event. -/
def handle (log : Log) (options : Options) (program : Program) (timeout : Option Nat)
    (watch : Watch) : Event → Watch
  | .work => { watch with
      progress := watch.progress.advance options program
      said := watch.said ++
        watch.progress.saidUntil log options program (fun _ => false) 1 }
  | .deliver => { watch with mailbox := watch.mailbox.or (resultOf watch.progress) }
  | .interrupt => { watch with progress := watch.progress.raiseStop, interrupted := true }
  | .expire => { watch with expired := true }
  | .look => watch.look timeout

/-- What comes of a list of events. -/
def follow (log : Log) (options : Options) (program : Program) (timeout : Option Nat)
    (watch : Watch) (events : List Event) : Watch :=
  events.foldl (handle log options program timeout) watch

/-- Let the run work for at most this many instructions, but not from where
it is to be held up. -/
def pursue (log : Log) (options : Options) (program : Program) (holds : Run → Bool)
    (count : Nat) (watch : Watch) : Watch :=
  { watch with
    progress := watch.progress.iterateUntil options program holds count
    said := watch.said ++ watch.progress.saidUntil log options program holds count }

/-- The verdict, if there is one. -/
def verdict? (watch : Watch) : Option Verdict :=
  match watch.stage with
  | .decided verdict => some verdict
  | _ => none

end Watch
end CommandLine
end RingTape
