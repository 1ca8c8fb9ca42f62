import RingTape.Settings.Grammar

namespace RingTape

/-!
# The values of settings

Which texts are values, said as a grammar: numbers in decimal digits, the
names of the modes, and the two words for colors.  The layers do not agree
on blanks.  The file allows them around a tape length and a mode, the
environment around everything it reads.

Applying a layer either takes over all that it supplies, or it stops at the
first text that is no value.  `Settings.AppliedExactly` says what then is
reported and which settings have changed.  Nothing here refers to the
readers of settings.
-/

namespace Text

/-- A numeral: a row of decimal digits that may have one plus sign in front. -/
def Numeral (text : List Char) (value : Nat) : Prop :=
  ∃ sign digits, text = sign ++ digits ∧ (sign = [] ∨ sign = ['+']) ∧ digits ≠ [] ∧
    (∀ digit ∈ digits, digit.isDigit = true) ∧ value = Nat.ofDigitChars 10 digits 0

end Text

/-- The names of a mode, in small letters. -/
def Mode.names : Mode → List String
  | character => ["char", "character"]
  | numeric => ["num", "numeric"]

/-- A text that is a limit where this layer supplies it. -/
def Layer.Limits : Layer → List Char → Nat → Prop
  | .file, text, bound => Text.Numeral text bound ∧ bound < UInt64.size
  | .environment, text, bound =>
    ∃ numeral, Text.Padded numeral text ∧ Text.Numeral numeral bound ∧ bound < UInt64.size

namespace Setting

/-- What a setting can be. -/
inductive Value where
  | length (cells : Nat)
  | mode (mode : Mode)
  | limit (bound : Option Nat)
  | color (wanted : Bool)
  deriving DecidableEq, Repr

/-- What a text of a layer means for a setting. -/
inductive Means : Layer → Setting → List Char → Value → Prop
  | tapeLength {layer : Layer} {numeral text : List Char} {length : Nat} :
      Text.Padded numeral text → Text.Numeral numeral length → 1 ≤ length →
      length < UInt64.size → Means layer tapeLength text (.length length)
  | mode {layer : Layer} {name text : List Char} {mode : Mode} {word : String} :
      Text.Padded name text → word ∈ mode.names → Text.lowerAscii name = word.toList →
      Means layer .mode text (.mode mode)
  | stepLimit {layer : Layer} {text : List Char} {bound : Nat} :
      layer.Limits text bound → Means layer stepLimit text (.limit (some bound))
  | timeout {layer : Layer} {text : List Char} {bound : Nat} :
      layer.Limits text bound → Means layer timeout text (.limit (some bound))
  | colored {text : List Char} : text = "true".toList → Means .file color text (.color true)
  | plain {text : List Char} : text = "false".toList → Means .file color text (.color false)
  | noColor {text : List Char} : text ≠ [] → Means .environment color text (.color false)

/-- A text has a meaning for a setting. -/
def Valid (layer : Layer) (setting : Setting) (text : String) : Prop :=
  ∃ value, Means layer setting text.toList value

end Setting

namespace Settings

/-- What a setting is. -/
def value (settings : Settings) : Setting → Setting.Value
  | .tapeLength => .length settings.tapeLength
  | .mode => .mode settings.mode
  | .stepLimit => .limit settings.stepLimit
  | .timeout => .limit settings.timeout
  | .color => .color settings.color

section Applying

variable (layer : Layer) (supplies : Setting → String → Prop) (start : Settings)

/-- A setting that was taken over: it means what its text means, and where no
text is supplied it is what it was. -/
structure Takes (reached : Settings) (setting : Setting) : Prop where
  supplied : ∀ text, supplies setting text →
    Setting.Means layer setting text.toList (reached.value setting)
  absent : (∀ text, ¬ supplies setting text) → reached.value setting = start.value setting

/-- The layer supplies only values for a setting. -/
def Sound (setting : Setting) : Prop :=
  ∀ text, supplies setting text → setting.Valid layer text

/-- What applying a layer has to come to.  The first setting with a text that
is no value is reported with this text; the settings in front of it are
taken over, and neither it nor a later one has changed.  Without such a text
all settings are taken over. -/
structure AppliedExactly (result : Except InvalidSetting Unit × Settings) : Prop where
  fails : ∀ before setting after text,
    before ++ setting :: after = [.tapeLength, .mode, .stepLimit, .timeout, .color] →
    (∀ earlier ∈ before, Sound layer supplies earlier) → supplies setting text →
    ¬ setting.Valid layer text →
    result.1 = .error ⟨setting.key layer, text⟩ ∧
      (∀ earlier ∈ before, Takes layer supplies start result.2 earlier) ∧
      ∀ other ∈ setting :: after, result.2.value other = start.value other
  succeeds : (∀ setting, Sound layer supplies setting) →
    result.1 = .ok () ∧ ∀ setting, Takes layer supplies start result.2 setting

end Applying
end Settings
end RingTape
