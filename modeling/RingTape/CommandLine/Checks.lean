import RingTape.CommandLine.Answer
import RingTape.Settings.Layers

namespace RingTape
namespace CommandLine

/-!
# What has to be in order before a run

The settings that a run is subject to, read off all layers at once, and the
checks that come before it.  Every check is told for itself, as if the others
did not exist: what it has against a command line, with which exit code, in
which words, and what was said before it.  So one command line may fail
several of them, and it is only the order of the list that settles which one
is heard.
-/

/-- What the layers supply in these surroundings. -/
def Surroundings.supply (surroundings : Surroundings) : Layer → Settings.Supply :=
  Settings.supply surroundings.environment surroundings.file?

namespace Arguments

open Settings (topmost?)

/-- The settings in force, each from the highest layer that has a value for
it: an argument, a variable, the settings file, the default.  For the tape
length the positional argument comes right below the option.  Colors are
switched off by a variable that is not empty, whatever the file says. -/
def inForce (arguments : Arguments) (positional : Option Nat)
    (supply : Layer → Settings.Supply) : Settings where
  tapeLength := (topmost? [
    arguments.tapeLength,
    positional,
    (supply .environment .tapeLength).bind Setting.readLength?,
    (supply .file .tapeLength).bind Setting.readLength?]).getD Tape.defaultLength
  mode := (topmost? [
    arguments.mode,
    (supply .environment .mode).bind Mode.read?,
    (supply .file .mode).bind Mode.read?]).getD .character
  stepLimit := topmost? [
    arguments.stepLimit,
    (supply .environment .stepLimit).bind (Setting.readLimit? .environment),
    (supply .file .stepLimit).bind (Setting.readLimit? .file)]
  timeout := topmost? [
    arguments.timeout,
    (supply .environment .timeout).bind (Setting.readLimit? .environment),
    (supply .file .timeout).bind (Setting.readLimit? .file)]
  color := !((supply .environment .color).any (· ≠ "")) &&
    ((supply .file .color).bind fun text => Setting.readColor? .file text true).getD true

variable (surroundings : Surroundings) (arguments : Arguments)

/-- The settings in force in these surroundings. -/
def effective : Settings :=
  arguments.inForce (arguments.choice?.bind Prod.snd) surroundings.supply

/-- The program text, where one can be had. -/
def text? : Option String :=
  arguments.choice?.bind fun choice => (Job.sourceText surroundings choice.1).toOption

/-- What is wrong with the program file, where one is chosen. -/
def fileError? : Option FileError :=
  match arguments.choice? with
  | some (.file path, _) =>
    match surroundings.readProgram path with
    | .error error => some error
    | .ok _ => none
  | _ => none

/-- What is said before a run. -/
def opening : List Remark :=
  surroundings.loading ++
    match (arguments.text? surroundings).map fun text => (text, Program.parse text) with
    | some (text, .ok program) => [
        .event (.parsed program.size (text.toList.count '\n' + 1)),
        .event (.starting (arguments.effective surroundings).tapeLength
          (arguments.effective surroundings).mode arguments.traced)]
    | _ => []

/-- The options of a run. -/
def options : Options where
  mode := (arguments.effective surroundings).mode
  prompt := surroundings.prompt
  stepLimit := (arguments.effective surroundings).stepLimit
  traced := arguments.traced

/-- How reports are painted. -/
def palette : Palette :=
  Palette.forColor ((arguments.effective surroundings).color && surroundings.terminal)

end Arguments

/-- What is checked before a run. -/
inductive Check where
  /-- The arguments choose one program. -/
  | choice
  /-- All texts that a layer supplies are values. -/
  | settings
  /-- The program file can be read. -/
  | file
  /-- There is memory for the tape, and it has a cell. -/
  | tape
  /-- The brackets match. -/
  | brackets
  /-- An interrupt would be noticed. -/
  | handler
  deriving DecidableEq, Repr

/-- An exit code and a report, and what was said before it. -/
structure Objection where
  code : Nat
  remarks : List Remark
  report : String
  deriving DecidableEq, Repr

namespace Check

/-- The checks in their order. -/
def all : List Check := [choice, settings, file, tape, brackets, handler]

/-- What a check has against a command line. -/
def objection? (surroundings : Surroundings) (arguments : Arguments) : Check → Option Objection
  | choice =>
    if arguments.choice?.isNone then some ⟨2, [], usage surroundings.program⟩ else none
  | settings =>
    (Settings.loadFault? surroundings.supply).map fun error =>
      ⟨1, surroundings.loading, surroundings.complaint error.message⟩
  | file =>
    (arguments.fileError? surroundings).map fun error =>
      ⟨1, surroundings.loading, surroundings.complaint error.message⟩
  | tape =>
    match surroundings.memoryError? (arguments.effective surroundings).tapeLength with
    | some error => some ⟨error.code, surroundings.loading, error.report surroundings⟩
    | none =>
      if (arguments.effective surroundings).tapeLength = 0 then
        some ⟨2, surroundings.loading, surroundings.complaint Tape.emptyMessage⟩
      else
        none
  | brackets =>
    (arguments.text? surroundings).bind fun text =>
      match Program.parse text with
      | .ok _ => none
      | .error error => some ⟨1, surroundings.loading,
          Report.brackets (some surroundings.program) text error
            (arguments.palette surroundings)⟩
  | handler =>
    surroundings.handlerFailure.map fun reason =>
      ⟨1, arguments.opening surroundings,
        surroundings.complaint ("failed to set ctrl+c handler: " ++ reason)⟩

/-- The first objection to a command line. -/
def firstObjection? (surroundings : Surroundings) (arguments : Arguments) : Option Objection :=
  all.findSome? (objection? surroundings arguments)

end Check

/-- How the error of a run is painted.  A reached limit is reported plainly. -/
def errorStyle (palette : Palette) : RunError → Style
  | .stepLimit _ => .plain
  | .invalidInput _ _ | .device _ _ => palette.error

/-- Whose error a run ends with.  A device fails in the name of the
program. -/
def errorAddress (program : String) : RunError → String
  | .device _ _ => program ++ ": "
  | .invalidInput _ _ | .stepLimit _ => ""

/-- The exit code and the report that go with the end of a run.  Only a run
that completed is a success, and it is reported without a word. -/
inductive Reported (program : String) (palette : Palette) : Ending → Nat → String → Prop
  | completed : Reported program palette .completed 0 ""
  | failed (error : RunError) :
    Reported program palette (.failed error) 1
      (errorAddress program error ++ (errorStyle palette error).paint error.message ++ "\n")

end CommandLine
end RingTape
