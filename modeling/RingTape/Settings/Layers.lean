import RingTape.Settings.Load

namespace RingTape

/-!
# The layers side by side

A layer is read setting after setting and changes the settings on the way.
Here the layers are told without any reading: which texts are values of a
setting, what is wrong with the texts that a layer supplies, and what the
layers say together.  A text is judged alone, so neither the settings that a
layer starts from nor those it has read before make a difference.

Of several faults the one reported is the first of the settings file, in the
order of reading, and without one there the first of the environment.
-/

namespace Setting

/-- Whether a text is a value of a setting where this layer supplies it. -/
def accepts (layer : Layer) (text : String) : Setting → Bool
  | tapeLength => (readLength? text).isSome
  | mode => (Mode.read? text).isSome
  | stepLimit | timeout => (readLimit? layer text).isSome
  | color => (readColor? layer text true).isSome

end Setting

namespace Settings

/-- The texts that a layer supplies for the settings. -/
abbrev Supply := Setting → Option String

/-- What is wrong with the text supplied for one setting. -/
def fault? (layer : Layer) (supply : Supply) (setting : Setting) : Option InvalidSetting :=
  ((supply setting).filter fun text => !setting.accepts layer text).map fun text =>
    ⟨setting.key layer, text⟩

/-- The first fault of a layer, in the order of reading. -/
def firstFault? (layer : Layer) (supply : Supply) : Option InvalidSetting :=
  Setting.all.findSome? (fault? layer supply)

/-- What the layers of a process supply.  The file supplies what its lines
assign last, and nothing where there is no file. -/
def supply (environment : String → Option String) (file? : String → Option (List UInt8)) :
    Layer → Supply
  | .file, setting => (fileText? environment file?).bind fun content =>
      lastAssigned? (fileAssignments content) (setting.key .file)
  | .environment, setting => environment (setting.key .environment)

/-- The fault that keeps the settings of a process from being loaded. -/
def loadFault? (supply : Layer → Supply) : Option InvalidSetting :=
  (firstFault? .file (supply .file)).or (firstFault? .environment (supply .environment))

/-- The value of the first layer that has one. -/
def topmost? {Value : Type} (layers : List (Option Value)) : Option Value :=
  layers.findSome? id

theorem fault?_eq_some_iff {layer : Layer} {supply : Supply} {setting : Setting}
    {error : InvalidSetting} :
    fault? layer supply setting = some error ↔
      ∃ text, supply setting = some text ∧ setting.accepts layer text = false ∧
        error = ⟨setting.key layer, text⟩ := by
  rw [fault?, Option.map_eq_some_iff]
  constructor
  · rintro ⟨text, kept, rfl⟩
    rcases Option.filter_eq_some_iff.mp kept with ⟨supplied, refused⟩
    exact ⟨text, supplied, (Bool.not_eq_true' _).mp refused, rfl⟩
  · rintro ⟨text, supplied, refused, rfl⟩
    exact ⟨text, Option.filter_eq_some_iff.mpr ⟨supplied, (Bool.not_eq_true' _).mpr refused⟩, rfl⟩

theorem fault?_eq_none_iff {layer : Layer} {supply : Supply} {setting : Setting} :
    fault? layer supply setting = none ↔
      ∀ text, supply setting = some text → setting.accepts layer text = true := by
  rw [Option.eq_none_iff_forall_ne_some]
  constructor
  · intro sound text supplied
    cases judged : setting.accepts layer text with
    | true => rfl
    | false => exact absurd (fault?_eq_some_iff.mpr ⟨text, supplied, judged, rfl⟩) (sound _)
  · intro sound error faulty
    rcases fault?_eq_some_iff.mp faulty with ⟨text, supplied, refused, -⟩
    rw [sound text supplied] at refused
    cases refused

theorem firstFault?_eq_none_iff {layer : Layer} {supply : Supply} :
    firstFault? layer supply = none ↔ ∀ setting, fault? layer supply setting = none := by
  rw [firstFault?, List.findSome?_eq_none_iff]
  exact ⟨fun sound setting => sound setting (by cases setting <;> decide),
    fun sound setting _ => sound setting⟩

theorem loadFault?_eq_none_iff {supply : Layer → Supply} :
    loadFault? supply = none ↔
      ∀ layer setting text, supply layer setting = some text →
        setting.accepts layer text = true := by
  rw [loadFault?, Option.or_eq_none_iff, firstFault?_eq_none_iff, firstFault?_eq_none_iff]
  simp only [fault?_eq_none_iff]
  constructor
  · rintro ⟨file, environment⟩ (_ | _)
    · exact file
    · exact environment
  · exact fun sound => ⟨sound .file, sound .environment⟩

theorem refused_of_firstFault? {layer : Layer} {supply : Supply} {error : InvalidSetting}
    (found : firstFault? layer supply = some error) :
    ∃ setting text, supply setting = some text ∧ setting.accepts layer text = false := by
  rcases List.exists_of_findSome?_eq_some found with ⟨setting, -, faulty⟩
  rcases fault?_eq_some_iff.mp faulty with ⟨text, supplied, refused, -⟩
  exact ⟨setting, text, supplied, refused⟩

/-- There is a fault to report where some layer supplies a text that is no
value. -/
theorem exists_loadFault?_iff {supply : Layer → Supply} :
    (∃ error, loadFault? supply = some error) ↔
      ∃ layer setting text, supply layer setting = some text ∧
        setting.accepts layer text = false := by
  constructor
  · rintro ⟨error, found⟩
    rcases Option.or_eq_some_iff.mp found with inFile | ⟨-, inEnvironment⟩
    · exact ⟨.file, refused_of_firstFault? inFile⟩
    · exact ⟨.environment, refused_of_firstFault? inEnvironment⟩
  · rintro ⟨layer, setting, text, supplied, refused⟩
    cases found : loadFault? supply with
    | some error => exact ⟨error, rfl⟩
    | none =>
      rw [loadFault?_eq_none_iff.mp found layer setting text supplied] at refused
      cases refused

end Settings
end RingTape
