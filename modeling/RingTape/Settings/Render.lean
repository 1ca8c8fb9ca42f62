import RingTape.Settings.File

namespace RingTape
namespace Settings

/-!
# Writing a settings file

The counterpart of reading one: each setting is written as one assignment in
the section `run`.  A limit that is not set is written by leaving it out,
since there is no text for it.
-/

/-- The text of a setting, if it has one. -/
def text? (settings : Settings) : Setting → Option String
  | .tapeLength => some (String.ofList (Text.numeral settings.tapeLength))
  | .mode => some settings.mode.name
  | .stepLimit => settings.stepLimit.map fun limit => String.ofList (Text.numeral limit)
  | .timeout => settings.timeout.map fun time => String.ofList (Text.numeral time)
  | .color => some (if settings.color then "true" else "false")

/-- The line that assigns a text to a name. -/
def line (key text : String) : String :=
  key ++ " = " ++ text ++ "\n"

/-- A settings file that assigns the given settings in this order. -/
def render (settings : Settings) (order : List Setting) : String :=
  "[run]\n" ++ String.join (order.filterMap fun setting =>
    (settings.text? setting).map (line (setting.key .file)))

/-- Settings that a file can hold: the tape has a cell, and the numbers fit
into a machine word. -/
structure Storable (settings : Settings) : Prop where
  cells : 0 < settings.tapeLength
  tapeLength : settings.tapeLength < Text.wordBound
  stepLimit : ∀ limit ∈ settings.stepLimit, limit < Text.wordBound
  timeout : ∀ time ∈ settings.timeout, time < Text.wordBound

/-- Settings put on top of others: a limit that is not set leaves the one
below in force. -/
def upon (settings start : Settings) : Settings :=
  { settings with
    stepLimit := settings.stepLimit.or start.stepLimit
    timeout := settings.timeout.or start.timeout }

end Settings
end RingTape
