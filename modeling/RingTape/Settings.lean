import RingTape.Mode
import RingTape.Tape
import RingTape.Text.Unsigned

namespace RingTape

/-!
# Settings and the layers that change them

Settings start from defaults and are changed by layers: a settings file
first, the environment second.  A layer supplies texts under the names it
has for the settings.  The texts are read one after another in a fixed
order.  The first one that cannot be read ends the layer with an error that
names it; what was set before it stays set, what comes after it keeps its
old value.

The layers differ in two points.  The environment allows blanks around every
number, the file only around the tape length.  Colors are switched on or off
by the file, while the environment can only switch them off.
-/

/-- What a run can be told beforehand.  The timeout is in milliseconds. -/
structure Settings where
  tapeLength : Nat := Tape.defaultLength
  mode : Mode := .character
  stepLimit : Option Nat := none
  timeout : Option Nat := none
  color : Bool := true
  deriving DecidableEq, Repr

/-- Where the text of a setting comes from. -/
inductive Layer where
  | file
  | environment
  deriving DecidableEq, Repr

/-- One setting. -/
inductive Setting where
  | tapeLength
  | mode
  | stepLimit
  | timeout
  | color
  deriving DecidableEq, Repr

/-- The text of a setting that could not be read, as it was supplied. -/
structure InvalidSetting where
  key : String
  value : String
  deriving DecidableEq, Repr

/-- The report on a setting that could not be read. -/
def InvalidSetting.message (error : InvalidSetting) : String :=
  "invalid value for " ++ error.key ++ ": '" ++ error.value ++ "'"

namespace Setting

/-- The order in which a layer's settings are read. -/
def all : List Setting := [tapeLength, mode, stepLimit, timeout, color]

/-- The name of a setting in a layer. -/
def key : Layer → Setting → String
  | .file, tapeLength => "tape_len"
  | .file, mode => "mode"
  | .file, stepLimit => "max_steps"
  | .file, timeout => "timeout_ms"
  | .file, color => "color"
  | .environment, tapeLength => "BFTAPE_TAPE_LEN"
  | .environment, mode => "BFTAPE_MODE"
  | .environment, stepLimit => "BFTAPE_MAX_STEPS"
  | .environment, timeout => "BFTAPE_TIMEOUT_MS"
  | .environment, color => "NO_COLOR"

/-- A tape length: a number that is not zero, blanks around it allowed. -/
def readLength? (text : String) : Option Nat :=
  (Text.unsigned? Text.wordBound (Text.trim text.toList)).filter (0 < ·)

/-- A limit, with blanks around it where the layer allows them. -/
def readLimit? (layer : Layer) (text : String) : Option Nat :=
  match layer with
  | .file => Text.unsigned? Text.wordBound text.toList
  | .environment => Text.unsigned? Text.wordBound (Text.trim text.toList)

/-- Whether colors are wanted, given the present wish. -/
def readColor? (layer : Layer) (text : String) (present : Bool) : Option Bool :=
  match layer with
  | .file => if text = "true" then some true else if text = "false" then some false else none
  | .environment => some (if text = "" then present else false)

/-- Read the text of one setting and change that setting alone. -/
def assign? (layer : Layer) (settings : Settings) (text : String) : Setting → Option Settings
  | tapeLength => (readLength? text).map fun length => { settings with tapeLength := length }
  | mode => (Mode.read? text).map fun mode => { settings with mode := mode }
  | stepLimit => (readLimit? layer text).map fun limit => { settings with stepLimit := some limit }
  | timeout => (readLimit? layer text).map fun time => { settings with timeout := some time }
  | color =>
    (readColor? layer text settings.color).map fun color => { settings with color := color }

end Setting

namespace Settings

/-- Read the given settings in turn, as far as they are supplied, up to the
first that cannot be read. -/
def assignAll (layer : Layer) (supplied : String → Option String) :
    List Setting → Settings → Except InvalidSetting Unit × Settings
  | [], settings => (.ok (), settings)
  | setting :: rest, settings =>
    match supplied (setting.key layer) with
    | none => assignAll layer supplied rest settings
    | some text =>
      match setting.assign? layer settings text with
      | none => (.error ⟨setting.key layer, text⟩, settings)
      | some settings => assignAll layer supplied rest settings

/-- Apply a layer that supplies a text for some of its names. -/
def applyLayer (settings : Settings) (layer : Layer) (supplied : String → Option String) :
    Except InvalidSetting Unit × Settings :=
  assignAll layer supplied Setting.all settings

/-- Apply the environment. -/
def applyEnvironment (settings : Settings) (environment : String → Option String) :
    Except InvalidSetting Unit × Settings :=
  settings.applyLayer .environment environment

end Settings
end RingTape
