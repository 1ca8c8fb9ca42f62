import RingTape.Mode
import RingTape.Text.Pieces
import RingTape.Text.Unsigned

namespace RingTape
namespace CommandLine

/-!
# Command-line arguments

An argument list is read from left to right.  Options take a value: the rest
of their own argument, behind an equals sign where one is written, or else
the whole next argument, whatever it looks like.  Flags take none, and short
ones may share a dash.  After a double dash that is not a value, everything
is positional.

At most two positionals are taken, a path and a tape length.  No option and
no flag may be given twice, and every number has to be a numeral.  A list
that breaks a rule has no reading; which rule it breaks is not recorded.
-/

/-- An argument that is followed by a value. -/
inductive ValueOption where
  | code
  | mode
  | tapeLength
  | stepLimit
  | timeout
  deriving DecidableEq, Repr

/-- An argument that stands alone. -/
inductive Flag where
  | traced
  | help
  deriving DecidableEq, Repr

/-- What the name of an option stands for. -/
inductive Switch where
  | flag (flag : Flag)
  | value (option : ValueOption)
  deriving DecidableEq, Repr

/-- What an argument list says. -/
structure Arguments where
  path : Option String := none
  /-- The second positional. -/
  length : Option Nat := none
  code : Option String := none
  mode : Option Mode := none
  tapeLength : Option Nat := none
  stepLimit : Option Nat := none
  timeout : Option Nat := none
  traced : Bool := false
  help : Bool := false
  deriving DecidableEq, Repr

namespace Switch

/-- The switch with this letter. -/
def short? : Char → Option Switch
  | 'c' => some (value .code)
  | 'm' => some (value .mode)
  | 't' => some (value .tapeLength)
  | 'd' => some (flag .traced)
  | 'h' => some (flag .help)
  | _ => none

/-- The switch with this name.  Names cannot be shortened. -/
def long? (name : List Char) : Option Switch :=
  match String.ofList name with
  | "code" => some (value .code)
  | "mode" => some (value .mode)
  | "tape-len" => some (value .tapeLength)
  | "max-steps" => some (value .stepLimit)
  | "timeout" => some (value .timeout)
  | "debug" => some (flag .traced)
  | "help" => some (flag .help)
  | _ => none

end Switch

namespace Arguments

/-- A number as arguments write it: no blanks around it. -/
def number? (text : String) : Option Nat :=
  Text.unsigned? Text.wordBound text.toList

/-- Give an option its value.  Each option is given at most once. -/
def setOption (arguments : Arguments) (option : ValueOption) (text : String) :
    Option Arguments :=
  match option with
  | .code =>
    if arguments.code.isSome then none else some { arguments with code := some text }
  | .mode =>
    if arguments.mode.isSome then none
    else (Mode.named? text).map fun mode => { arguments with mode := some mode }
  | .tapeLength =>
    if arguments.tapeLength.isSome then none
    else (number? text).map fun number => { arguments with tapeLength := some number }
  | .stepLimit =>
    if arguments.stepLimit.isSome then none
    else (number? text).map fun number => { arguments with stepLimit := some number }
  | .timeout =>
    if arguments.timeout.isSome then none
    else (number? text).map fun number => { arguments with timeout := some number }

/-- Raise a flag.  Each flag is raised at most once. -/
def raiseFlag (arguments : Arguments) (flag : Flag) : Option Arguments :=
  match flag with
  | .traced => if arguments.traced then none else some { arguments with traced := true }
  | .help => if arguments.help then none else some { arguments with help := true }

/-- Take a positional: the path first, then the tape length. -/
def addPositional (arguments : Arguments) (text : String) : Option Arguments :=
  match arguments.path, arguments.length with
  | none, _ => if text = "" then none else some { arguments with path := some text }
  | some _, none => (number? text).map fun number => { arguments with length := some number }
  | some _, some _ => none

/-- A value written in the same argument as its option, without the equals
sign that may separate the two. -/
def attached : List Char → String
  | '=' :: value => String.ofList value
  | value => String.ofList value

/-- Read the letters behind a single dash.  The answer may hold an option
that still waits for its value. -/
def readLetters (arguments : Arguments) : List Char → Option (Arguments × Option ValueOption)
  | [] => some (arguments, none)
  | letter :: rest =>
    match Switch.short? letter with
    | none => none
    | some (.flag flag) => (arguments.raiseFlag flag).bind fun arguments =>
        readLetters arguments rest
    | some (.value option) =>
      if rest.isEmpty then
        some (arguments, some option)
      else
        (arguments.setOption option (attached rest)).map fun arguments => (arguments, none)

/-- Read what stands behind a double dash. -/
def readName (arguments : Arguments) (text : List Char) :
    Option (Arguments × Option ValueOption) :=
  match Text.cutOnce? '=' text with
  | some (name, value) =>
    match Switch.long? name with
    | some (.value option) =>
      (arguments.setOption option (String.ofList value)).map fun arguments => (arguments, none)
    | _ => none
  | none =>
    match Switch.long? text with
    | some (.value option) => some (arguments, some option)
    | some (.flag flag) => (arguments.raiseFlag flag).map fun arguments => (arguments, none)
    | none => none

/-- Read one argument that is not the value of an earlier one.  A single
dash alone is a positional. -/
def readArgument (arguments : Arguments) (text : String) :
    Option (Arguments × Option ValueOption) :=
  match text.toList with
  | '-' :: '-' :: name => arguments.readName name
  | '-' :: letter :: letters => arguments.readLetters (letter :: letters)
  | _ => (arguments.addPositional text).map fun arguments => (arguments, none)

/-- Read the rest of an argument list, while `waiting` is the option whose
value comes next. -/
def readFrom (arguments : Arguments) (waiting : Option ValueOption) :
    List String → Option Arguments
  | [] => if waiting.isSome then none else some arguments
  | text :: rest =>
    match waiting with
    | some option =>
      (arguments.setOption option text).bind fun arguments => readFrom arguments none rest
    | none =>
      if text = "--" then
        rest.foldlM addPositional arguments
      else
        (arguments.readArgument text).bind fun next => readFrom next.1 next.2 rest

/-- Read an argument list. -/
def read? (list : List String) : Option Arguments :=
  readFrom {} none list

end Arguments
end CommandLine
end RingTape
