import RingTape.Settings.Values

namespace RingTape
namespace Settings

/-!
# Sources of settings

A settings file and an environment are sources, and each is applied as one
layer.  A source may be refused half-way, and then what was set before the
refusal stays.  The next one starts from there (`Settings.afterAll`).

The second half of the module is about sources that speak of one setting
only, which both kinds of source can do: a file whose section `run` has a
single line with a text in quotes, and an environment that holds this text
for the setting.  `Settings.ReadAlike` says that the two do the same.
-/

/-- Something that settings are read from. -/
inductive Source where
  | file (content : String)
  | environment (held : String → Option String)

namespace Source

/-- The layer that a source is applied as. -/
def layer : Source → Layer
  | file _ => .file
  | environment _ => .environment

/-- What a source supplies under the names of its layer. -/
def supplied : Source → String → Option String
  | file content => lastAssigned? (fileAssignments content)
  | environment held => held

end Source

/-- Apply a source. -/
def apply (settings : Settings) : Source → Except InvalidSetting Unit × Settings
  | .file content => settings.applyFile content
  | .environment held => settings.applyEnvironment held

theorem apply_eq (settings : Settings) (source : Source) :
    settings.apply source = settings.applyLayer source.layer source.supplied := by
  cases source <;> rfl

/-- Settings after some sources were applied in turn, also after those that
were refused. -/
def afterAll (sources : List Source) (start : Settings) : Settings :=
  sources.foldl (fun settings source => (settings.apply source).2) start

/-! ## One setting from either source -/

/-- A layer supplies this text for one setting and nothing for the others. -/
structure SuppliesOnly (layer : Layer) (supplied : String → Option String) (setting : Setting)
    (text : String) : Prop where
  given : supplied (setting.key layer) = some text
  others : ∀ other ≠ setting, supplied (other.key layer) = none

/-- The only line of this file that means something assigns a text in quotes
to a name.  The last line may be without its end. -/
def AssignsQuoted (content key text : String) : Prop :=
  content = "[run]\n" ++ key ++ " = \"" ++ text ++ "\"" ∨
    content = "[run]\n" ++ key ++ " = \"" ++ text ++ "\"\n"

/-- The setting has been given the value that a text has in this layer, and
the others are as they were. -/
structure Given (layer : Layer) (start : Settings) (setting : Setting) (text : String)
    (reached : Settings) : Prop where
  value : Setting.Means layer setting text.toList (reached.value setting)
  others : ∀ other ≠ setting, reached.value other = start.value other

/-- A file and an environment that supply the same text for a setting do the
same.  Either both give the setting the same value, or both refuse the text
as it was supplied and change nothing. -/
def ReadAlike (start : Settings) (setting : Setting) (text : String)
    (file environment : Except InvalidSetting Unit × Settings) : Prop :=
  (∃ reached, file = (.ok (), reached) ∧ environment = (.ok (), reached) ∧
    Given .file start setting text reached ∧ Given .environment start setting text reached) ∨
  file = (.error ⟨setting.key .file, text⟩, start) ∧
    environment = (.error ⟨setting.key .environment, text⟩, start) ∧
    ¬ setting.Valid .file text ∧ ¬ setting.Valid .environment text

end Settings
end RingTape
