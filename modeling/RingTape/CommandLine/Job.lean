import RingTape.CommandLine.Arguments
import RingTape.CommandLine.Usage
import RingTape.Remarks
import RingTape.Report
import RingTape.Settings.Load

namespace RingTape
namespace CommandLine

/-!
# From a command line to a job

Everything is settled before anything runs.  The stages are the arguments,
the choice of the program, the settings, the program file, the tape and the
brackets, in this order; the first one that fails decides what is reported,
and no input is read and no output written until all of them succeeded.
Arguments win over the settings that were loaded, field by field.

A job is the result: a program, a tape and the options of its run.  What a
refusal reports does not depend on the stages after it.

Some of what can go wrong lies outside: a file that nobody may read, memory
that is not there, a logger with a mind of its own.  The surroundings say what
comes of these, and nothing is assumed of it.
-/

/-- What a command sees of its surroundings before it runs. -/
structure Surroundings where
  /-- The name that the program was called by. -/
  program : String
  environment : String → Option String
  /-- The content of the file at a path. -/
  file? : String → Option (List UInt8)
  /-- Why the file at a path cannot be read, if there is one that has no
  content to show. -/
  unreadable? : String → Option String := fun _ => none
  /-- Whether reports go to a terminal. -/
  terminal : Bool := false
  /-- Whether input comes from a terminal. -/
  inputTerminal : Bool := false
  /-- The log that is kept when the variable for it has this value. -/
  logger : Option String → Log := fun _ => .off
  /-- The number of bytes that can be had for a tape, if that is known. -/
  memory : Option Nat := none
  /-- What is written about a breakdown with this message. -/
  breakdown : String → String := fun message => "thread 'main' panicked:\n" ++ message ++ "\n"
  /-- Why no one can be notified of an interrupt, if that is so. -/
  handlerFailure : Option String := none

namespace Surroundings

/-- The variable that says what is logged. -/
def logVariable : String := "RUST_LOG"

/-- The log of a command in these surroundings. -/
def log (surroundings : Surroundings) : Log :=
  surroundings.logger (surroundings.environment logVariable)

/-- The prompt for someone at a terminal. -/
def prompt (surroundings : Surroundings) : Option String :=
  if surroundings.inputTerminal then some "Input a single value: " else none

/-- What is said about the settings file, if there is one. -/
def loading (surroundings : Surroundings) : List Remark :=
  match Settings.fileText? surroundings.environment surroundings.file? with
  | none => []
  | some _ => [.event .loading]

end Surroundings

/-- Where the program text comes from. -/
inductive ProgramSource where
  | file (path : String)
  | inline (code : String)
  deriving DecidableEq, Repr

/-- Why a program file was not read. -/
inductive FileError where
  | invalidPath (path : String)
  | malformedText
  | unreadable (reason : String)
  deriving DecidableEq, Repr

/-- The wording of a file error. -/
def FileError.message : FileError → String
  | invalidPath path => "Invalid path or file given: " ++ path
  | malformedText =>
    "failed to read program file as UTF-8: stream did not contain valid UTF-8"
  | unreadable reason => "failed to read program file as UTF-8: " ++ reason

/-- Why there is no memory for a tape. -/
inductive MemoryError where
  /-- No process may ask for so much. -/
  | overlong
  /-- This many bytes are not to be had. -/
  | exhausted (length : Nat)
  deriving DecidableEq, Repr

namespace MemoryError

/-- The exit code that goes with a lack of memory.  Running out of it is the
end by signal 6, which counts as 128 more. -/
def code : MemoryError → Nat
  | overlong => 101
  | exhausted _ => 134

/-- What is written about a lack of memory. -/
def report (surroundings : Surroundings) : MemoryError → String
  | overlong => surroundings.breakdown "capacity overflow"
  | exhausted length => "memory allocation of " ++ toString length ++ " bytes failed\n"

end MemoryError

/-- Every tape is shorter than this. -/
def lengthBound : Nat := UInt64.size / 2

/-- Why there is no memory for a tape of this length, if there is none. -/
def Surroundings.memoryError? (surroundings : Surroundings) (length : Nat) :
    Option MemoryError :=
  if lengthBound ≤ length then
    some .overlong
  else if surroundings.memory.any (· < length) then
    some (.exhausted length)
  else
    none

/-- Why nothing was run. -/
inductive Refusal where
  | badArguments
  /-- The usage text was asked for. -/
  | help
  /-- The arguments name no program, or more than one. -/
  | noProgram
  | settings (error : InvalidSetting)
  | file (error : FileError)
  | memory (error : MemoryError)
  | emptyTape
  | brackets (source : String) (error : BracketError) (color : Bool)
  deriving DecidableEq, Repr

/-- Everything that a run needs to be told. -/
structure Job where
  program : Program
  /-- The number of lines of its text. -/
  lines : Nat
  tape : Tape
  options : Options
  /-- The time in milliseconds after which the run is given up. -/
  timeout : Option Nat
  /-- Whether reports are painted. -/
  color : Bool

/-- A message in the name of the program. -/
def Surroundings.complaint (surroundings : Surroundings) (message : String) : String :=
  surroundings.program ++ ": " ++ message ++ "\n"

namespace Refusal

/-- The exit code that goes with a refusal. -/
def code : Refusal → Nat
  | badArguments | noProgram | emptyTape => 2
  | help => 0
  | settings _ | file _ | brackets _ _ _ => 1
  | memory error => error.code

/-- What a refusal reports. -/
def report (surroundings : Surroundings) : Refusal → String
  | badArguments => "error: invalid arguments\n"
  | help | noProgram => usage surroundings.program
  | settings error => surroundings.complaint error.message
  | file error => surroundings.complaint error.message
  | memory error => error.report surroundings
  | emptyTape => surroundings.complaint Tape.emptyMessage
  | brackets source error color =>
    Report.brackets (some surroundings.program) source error (Palette.forColor color)

/-- What was said before a refusal.  The settings file is looked for once a
program is chosen. -/
def remarks (surroundings : Surroundings) : Refusal → List Remark
  | badArguments | help | noProgram => []
  | settings _ | file _ | memory _ | emptyTape | brackets _ _ _ => surroundings.loading

end Refusal

namespace Arguments

/-- The program that the arguments choose, and the positional tape length.
Next to inline code a lone positional is a tape length and no path. -/
def choice? (arguments : Arguments) : Option (ProgramSource × Option Nat) :=
  match arguments.path, arguments.code with
  | some path, none => some (.file path, arguments.length)
  | none, some code => some (.inline code, arguments.length)
  | some path, some code =>
    if arguments.length.isSome then
      none
    else
      (number? path).map fun length => (.inline code, some length)
  | none, none => none

/-- The settings under these arguments.  The option for the tape length wins
over the positional one. -/
def override (arguments : Arguments) (positional : Option Nat) (settings : Settings) :
    Settings where
  tapeLength := (arguments.tapeLength.or positional).getD settings.tapeLength
  mode := arguments.mode.getD settings.mode
  stepLimit := arguments.stepLimit.or settings.stepLimit
  timeout := arguments.timeout.or settings.timeout
  color := settings.color

end Arguments

/-- The ending that the name of a program file has. -/
def fileSuffix : List Char := ['.', 'b', 'f']

/-- Whether a path ends in the name of a program file.  The suffix alone is
not such a name. -/
def isProgramPath (path : String) : Bool :=
  match (List.splitOn '/' path.toList).getLast? with
  | none => false
  | some name => fileSuffix.isSuffixOf name && name != fileSuffix

/-- The text of a program file. -/
def Surroundings.readProgram (surroundings : Surroundings) (path : String) :
    Except FileError String :=
  match surroundings.file? path, surroundings.unreadable? path with
  | none, none => .error (.invalidPath path)
  | none, some reason =>
    if isProgramPath path then .error (.unreadable reason) else .error (.invalidPath path)
  | some content, _ =>
    if isProgramPath path then
      match Text.decode? content with
      | some text => .ok text
      | none => .error .malformedText
    else
      .error (.invalidPath path)

namespace Job

/-- The text of the chosen program. -/
def sourceText (surroundings : Surroundings) : ProgramSource → Except Refusal String
  | .inline code => .ok code
  | .file path => (surroundings.readProgram path).mapError .file

/-- The stages after the settings: the program file, the tape, with the
memory for it, and the brackets. -/
def build (surroundings : Surroundings) (source : ProgramSource) (traced : Bool)
    (settings : Settings) : Except Refusal Job :=
  let color := settings.color && surroundings.terminal
  match sourceText surroundings source with
  | .error refusal => .error refusal
  | .ok text =>
    match surroundings.memoryError? settings.tapeLength with
    | some error => .error (.memory error)
    | none =>
      match Tape.blank? settings.tapeLength with
      | none => .error .emptyTape
      | some tape =>
        match Program.parse text with
        | .error error => .error (.brackets text error color)
        | .ok program => .ok {
            program := program
            lines := text.toList.count '\n' + 1
            tape := tape
            options := {
              mode := settings.mode
              prompt := surroundings.prompt
              stepLimit := settings.stepLimit
              traced := traced }
            timeout := settings.timeout
            color := color }

/-- The stages after the request for help: the choice of the program, the
settings, and the rest. -/
def settle (surroundings : Surroundings) (arguments : Arguments) : Except Refusal Job :=
  match arguments.choice? with
  | none => .error .noProgram
  | some (source, positional) =>
    match Settings.load surroundings.environment surroundings.file? with
    | .error error => .error (.settings error)
    | .ok loaded =>
      build surroundings source arguments.traced (arguments.override positional loaded)

/-- All stages after the arguments were read. -/
def prepare (surroundings : Surroundings) (arguments : Arguments) : Except Refusal Job :=
  if arguments.help then .error .help else settle surroundings arguments

/-- All stages. -/
def ofList (surroundings : Surroundings) (list : List String) : Except Refusal Job :=
  match Arguments.read? list with
  | none => .error .badArguments
  | some arguments => prepare surroundings arguments

/-- What was said before a run. -/
def opening (job : Job) (surroundings : Surroundings) : List Remark :=
  surroundings.loading ++ [
    .event (.parsed job.program.size job.lines),
    .event (.starting job.tape.length job.options.mode job.options.traced)]

end Job
end CommandLine
end RingTape
