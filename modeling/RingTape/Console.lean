import RingTape.Console.CellText
import RingTape.Console.InputScript
import RingTape.Console.Sink
import RingTape.Instruction

namespace RingTape

/-!
# The console of a run

A console is everything a running program can reach besides its tape: an
input script, a sink, the prompts shown so far, and a stop flag that anyone
may raise and nobody lowers.  It outlives a single run, so several programs
can take turns on it.

Each operation returns what came of it together with the console after it,
also when it failed: a failing write may have been accepted in part, and a
failing read has used up its record.
-/

/-- How a device of the console fails. -/
inductive DeviceFailure where
  | sinkFull
  | flushFailed
  | inputFailed
  deriving DecidableEq, Repr

/-- The wording of a device failure. -/
def DeviceFailure.message : DeviceFailure → String
  | sinkFull => "sink full"
  | flushFailed => "flush failed"
  | inputFailed => "input failed"

/-- Why a command could not be carried out. -/
inductive CommandFailure where
  /-- The input record denotes no cell. -/
  | invalidInput
  | device (failure : DeviceFailure)
  deriving DecidableEq, Repr

/-- What a running program can reach besides its tape. -/
structure Console where
  input : InputScript := []
  output : Sink := {}
  /-- The prompts shown so far. -/
  prompts : Nat := 0
  /-- The cells written since the run began. -/
  emitted : Nat := 0
  /-- A write raises the stop flag once this many bytes were accepted. -/
  stopAfter : Option Nat := none
  stopped : Bool := false

namespace Console

/-- Whether a write raises the stop flag when `count` bytes of it brought
the total to `total`.  A write of which nothing was accepted raises
nothing. -/
def raisesStop (threshold : Option Nat) (count total : Nat) : Bool :=
  match threshold with
  | none => false
  | some threshold => 0 < count && threshold ≤ total

/-- Write a text. -/
def write (console : Console) (text : String) : Except DeviceFailure Unit × Console :=
  match console with
  | ⟨input, output, prompts, emitted, stopAfter, stopped⟩ =>
    let content := Text.encode text
    match output.write content with
    | (count, output) =>
      let stopped := stopped || raisesStop stopAfter count output.accepted.size
      (if count = content.length then .ok () else .error .sinkFull,
        ⟨input, output, prompts, emitted, stopAfter, stopped⟩)

/-- Make everything visible that was written. -/
def flush (console : Console) : Except DeviceFailure Unit × Console :=
  match console with
  | ⟨input, output, prompts, emitted, stopAfter, stopped⟩ =>
    match output.flush with
    | (done, output) =>
      (if done then .ok () else .error .flushFailed,
        ⟨input, output, prompts, emitted, stopAfter, stopped⟩)

/-- Written after the last instruction of a program. -/
def completionNotice : String := "\nDone!\n"

/-- Write the completion notice and make everything visible. -/
def conclude (console : Console) : Except DeviceFailure Unit × Console :=
  match console.write completionNotice with
  | (.error failure, console) => (.error failure, console)
  | (.ok (), console) => console.flush

/-- Write a cell.  Numbers are separated by single spaces, so every number
but the first of a run brings a space along. -/
def emit (console : Console) (mode : Mode) (cell : UInt8) :
    Except DeviceFailure Unit × Console :=
  let separator :=
    match mode with
    | .character => ""
    | .numeric => if console.emitted = 0 then "" else " "
  match console.write (separator ++ mode.render cell) with
  | (.ok (), console) => (.ok (), { console with emitted := console.emitted + 1 })
  | (.error failure, console) => (.error failure, console)

/-- Show the prompt, if there is one. -/
def ask (console : Console) (prompt : Option String) : Console :=
  match prompt with
  | none => console
  | some _ => { console with prompts := console.prompts + 1 }

/-- Take one record and read a cell from it. -/
def receive (console : Console) (mode : Mode) : Except CommandFailure UInt8 × Console :=
  match console.input.takeRecord with
  | (record, input) =>
    let answer : Except CommandFailure UInt8 :=
      match record with
      | .failed _ .invalidData => .error .invalidInput
      | .failed _ .other => .error (.device .inputFailed)
      | .line content =>
        match mode.decode? content with
        | some cell => .ok cell
        | none => .error .invalidInput
    (answer, { console with input := input })

/-- Read a cell: make the output visible, show the prompt, take one record.
If the output cannot be made visible, the other two do not happen. -/
def read (console : Console) (mode : Mode) (prompt : Option String) :
    Except CommandFailure UInt8 × Console :=
  match console.flush with
  | (.error failure, console) => (.error (.device failure), console)
  | (.ok (), console) => (console.ask prompt).receive mode

/-- The part of an instruction that concerns the console.  The answer is the
value that is supplied to the tape, which matters only for input; every
other instruction gets the current cell back. -/
def supply (console : Console) (mode : Mode) (prompt : Option String)
    (instruction : Instruction) (cell : UInt8) : Except CommandFailure UInt8 × Console :=
  match instruction with
  | .command .output =>
    match console.emit mode cell with
    | (.ok (), console) => (.ok cell, console)
    | (.error failure, console) => (.error (.device failure), console)
  | .command .input => console.read mode prompt
  | _ => (.ok cell, console)

end Console
end RingTape
