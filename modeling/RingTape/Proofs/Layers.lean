import RingTape.Proofs.LastAssignments
import RingTape.Settings.Layers

namespace RingTape

/-!
# Reading the layers

Reading a layer either changes every setting for which it supplies a text,
or it stops at the first text that is no value (`applyLayer_eq`).  Since each
text is judged alone and changes its own setting alone, the result can be
told setting by setting (`Settings.overlay`), and loading the settings of a
process comes down to two layers on top of the defaults (`load_eq`).
-/

namespace Setting

/-- A text is judged without regard to the settings that it would change. -/
theorem isSome_assign? (layer : Layer) (settings : Settings) (text : String) (setting : Setting) :
    (setting.assign? layer settings text).isSome = setting.accepts layer text := by
  cases setting with
  | tapeLength => exact Option.isSome_map
  | mode => exact Option.isSome_map
  | stepLimit => exact Option.isSome_map
  | timeout => exact Option.isSome_map
  | color =>
    rw [assign?, accepts, Option.isSome_map]
    cases layer with
    | file => rfl
    | environment => rfl

end Setting

namespace Settings

/-- The texts of a layer, from what it supplies under its names. -/
def named (layer : Layer) (supplied : String → Option String) : Supply :=
  fun setting => supplied (setting.key layer)

/-- Settings after one setting of a layer was read.  A text that is no value
leaves them as they are. -/
def amend (layer : Layer) (supply : Supply) (settings : Settings) (setting : Setting) : Settings :=
  ((supply setting).bind fun text => setting.assign? layer settings text).getD settings

/-- Settings under the texts of a layer, each setting for itself. -/
def overlay (layer : Layer) (supply : Supply) (settings : Settings) : Settings where
  tapeLength := ((supply .tapeLength).bind Setting.readLength?).getD settings.tapeLength
  mode := ((supply .mode).bind Mode.read?).getD settings.mode
  stepLimit := ((supply .stepLimit).bind (Setting.readLimit? layer)).or settings.stepLimit
  timeout := ((supply .timeout).bind (Setting.readLimit? layer)).or settings.timeout
  color := ((supply .color).bind fun text =>
    Setting.readColor? layer text settings.color).getD settings.color

variable {layer : Layer} {supplied : String → Option String} {setting : Setting}
  {order before after : List Setting} {error : InvalidSetting} (start : Settings)

/-! ## Reading setting after setting -/

theorem assignAll_cons_of_sound (sound : fault? layer (named layer supplied) setting = none) :
    assignAll layer supplied (setting :: order) start =
      assignAll layer supplied order (amend layer (named layer supplied) start setting) := by
  rw [assignAll, amend, named]
  cases present : supplied (setting.key layer) with
  | none => rfl
  | some text =>
    have accepted : (setting.assign? layer start text).isSome = true := by
      rw [Setting.isSome_assign?]
      exact fault?_eq_none_iff.mp sound text present
    rcases Option.isSome_iff_exists.mp accepted with ⟨changed, read⟩
    simp only [Option.bind_some, read]
    rfl

theorem assignAll_cons_of_fault
    (faulty : fault? layer (named layer supplied) setting = some error) :
    assignAll layer supplied (setting :: order) start = (.error error, start) := by
  rcases fault?_eq_some_iff.mp faulty with ⟨text, present, refused, rfl⟩
  have unread : setting.assign? layer start text = none := by
    rw [← Option.not_isSome_iff_eq_none, Setting.isSome_assign?, refused]
    exact Bool.false_ne_true
  have present : supplied (setting.key layer) = some text := present
  rw [assignAll, present]
  dsimp only
  rw [unread]

/-- Where no text is refused, every text is read. -/
theorem assignAll_of_sound
    (sound : ∀ setting ∈ order, fault? layer (named layer supplied) setting = none) :
    assignAll layer supplied order start =
      (.ok (), order.foldl (amend layer (named layer supplied)) start) := by
  induction order generalizing start with
  | nil => rfl
  | cons setting rest ih =>
    rw [assignAll_cons_of_sound start (sound setting List.mem_cons_self), List.foldl_cons]
    exact ih _ fun setting member => sound setting (List.mem_cons_of_mem _ member)

/-- The first text that is refused is reported, and only what was read before
it has any effect. -/
theorem assignAll_of_fault
    (sound : ∀ setting ∈ before, fault? layer (named layer supplied) setting = none)
    (faulty : fault? layer (named layer supplied) setting = some error) :
    assignAll layer supplied (before ++ setting :: after) start =
      (.error error, before.foldl (amend layer (named layer supplied)) start) := by
  induction before generalizing start with
  | nil => exact assignAll_cons_of_fault start faulty
  | cons first rest ih =>
    rw [List.cons_append, assignAll_cons_of_sound start (sound first List.mem_cons_self),
      List.foldl_cons]
    exact ih _ fun setting member => sound setting (List.mem_cons_of_mem _ member)

/-! ## Setting by setting -/

variable (layer) (supply : Supply)

theorem getD_bind_map {Value : Type} (supplied : Option String) (read : String → Option Value)
    (change : Value → Settings) :
    (supplied.bind fun text => (read text).map change).getD start =
      ((supplied.bind read).map change).getD start := by
  cases supplied <;> rfl

@[simp]
theorem amend_tapeLength :
    amend layer supply start .tapeLength =
      { start with
        tapeLength := ((supply .tapeLength).bind Setting.readLength?).getD start.tapeLength } := by
  simp only [amend, Setting.assign?, getD_bind_map]
  cases (supply .tapeLength).bind Setting.readLength? <;> rfl

@[simp]
theorem amend_mode :
    amend layer supply start .mode =
      { start with mode := ((supply .mode).bind Mode.read?).getD start.mode } := by
  simp only [amend, Setting.assign?, getD_bind_map]
  cases (supply .mode).bind Mode.read? <;> rfl

@[simp]
theorem amend_stepLimit :
    amend layer supply start .stepLimit =
      { start with
        stepLimit :=
          ((supply .stepLimit).bind (Setting.readLimit? layer)).or start.stepLimit } := by
  simp only [amend, Setting.assign?, getD_bind_map]
  cases (supply .stepLimit).bind (Setting.readLimit? layer) <;> rfl

@[simp]
theorem amend_timeout :
    amend layer supply start .timeout =
      { start with
        timeout := ((supply .timeout).bind (Setting.readLimit? layer)).or start.timeout } := by
  simp only [amend, Setting.assign?, getD_bind_map]
  cases (supply .timeout).bind (Setting.readLimit? layer) <;> rfl

@[simp]
theorem amend_color :
    amend layer supply start .color =
      { start with
        color := ((supply .color).bind fun text =>
          Setting.readColor? layer text start.color).getD start.color } := by
  simp only [amend, Setting.assign?, getD_bind_map]
  cases (supply .color).bind fun text => Setting.readColor? layer text start.color <;> rfl

/-- Reading all settings in turn and reading each for itself is the same. -/
theorem foldl_amend_all :
    Setting.all.foldl (amend layer supply) start = overlay layer supply start := by
  simp [Setting.all, overlay]

variable {layer}

/-- A layer without a fault is read completely. -/
theorem applyLayer_of_sound (sound : firstFault? layer (named layer supplied) = none) :
    start.applyLayer layer supplied = (.ok (), overlay layer (named layer supplied) start) := by
  rw [← foldl_amend_all]
  exact assignAll_of_sound start fun setting _ => firstFault?_eq_none_iff.mp sound setting

/-- A layer with faults reports the first of them. -/
theorem applyLayer_of_fault (faulty : firstFault? layer (named layer supplied) = some error) :
    ∃ reached, start.applyLayer layer supplied = (.error error, reached) := by
  rcases List.findSome?_eq_some_iff.mp faulty with ⟨before, setting, after, whole, faulty, sound⟩
  rw [applyLayer, whole]
  exact ⟨_, assignAll_of_fault start sound faulty⟩

/-! ## Loading -/

variable (environment : String → Option String) (file? : String → Option (List UInt8))

/-- A settings file that is absent is read like one that assigns nothing. -/
theorem exists_fileSupply :
    ∃ supplied, Settings.supply environment file? .file = named .file supplied ∧
      load environment file? =
        match ({} : Settings).applyLayer .file supplied with
        | (.error error, _) => .error error
        | (.ok (), settings) =>
          match settings.applyEnvironment environment with
          | (.error error, _) => .error error
          | (.ok (), settings) => .ok settings := by
  cases found : fileText? environment file? with
  | none =>
    refine ⟨fun _ => none, funext fun setting => ?_, ?_⟩
    · rw [Settings.supply, found]
      rfl
    · rw [load, found]
      rfl
  | some content =>
    refine ⟨lastAssigned? (fileAssignments content), funext fun setting => ?_, ?_⟩
    · rw [Settings.supply, found]
      rfl
    · rw [load, found]
      rfl

/-- The settings of a process: an error for the first fault, and without one
the two layers on top of the defaults. -/
theorem load_eq :
    load environment file? =
      match loadFault? (Settings.supply environment file?) with
      | some error => .error error
      | none => .ok (overlay .environment (Settings.supply environment file? .environment)
          (overlay .file (Settings.supply environment file? .file) {})) := by
  rcases exists_fileSupply environment file? with ⟨supplied, written, loaded⟩
  have byName : Settings.supply environment file? .environment =
      named .environment environment := rfl
  rw [loaded, loadFault?, written, byName]
  cases inFile : firstFault? .file (named .file supplied) with
  | some error =>
    rcases applyLayer_of_fault {} inFile with ⟨reached, stops⟩
    rw [stops]
    rfl
  | none =>
    rw [applyLayer_of_sound {} inFile, Option.none_or]
    dsimp only [applyEnvironment]
    cases inEnvironment : firstFault? .environment (named .environment environment) with
    | some error =>
      rcases applyLayer_of_fault (overlay .file (named .file supplied) {}) inEnvironment with
        ⟨reached, stops⟩
      rw [stops]
    | none => rw [applyLayer_of_sound _ inEnvironment]

/-- The file supplies the last values of its keys. -/
theorem supply_file_eq_some_iff {setting : Setting} {value : String} :
    Settings.supply environment file? .file setting = some value ↔
      ∃ content, fileText? environment file? = some content ∧
        LastValue (fileLines content) (setting.key .file).toList value.toList := by
  rw [Settings.supply, Option.bind_eq_some_iff]
  exact exists_congr fun content => and_congr_right fun _ => lookup?_eq_some_iff _

end Settings
end RingTape
