import RingTape.CommandLine.Checks
import RingTape.Proofs.Layers

namespace RingTape

/-!
# Which layer wins

Loading puts one layer on top of the other and the arguments on top of both.
Setting by setting this is the same as asking the layers from the top down
(`override_overlay`).  So a command whose arguments choose a program is
refused for the first fault of a layer, whatever the arguments say, and
without one it goes on with the settings in force (`prepare_of_choice`).
-/

namespace Settings

variable {Value : Type}

@[simp]
theorem topmost?_nil : topmost? ([] : List (Option Value)) = none := rfl

@[simp]
theorem topmost?_cons (layer : Option Value) (rest : List (Option Value)) :
    topmost? (layer :: rest) = layer.or (topmost? rest) := by
  cases layer <;> rfl

end Settings

namespace CommandLine

variable {surroundings : Surroundings} {arguments : Arguments} {source : ProgramSource}
  {positional : Option Nat}

namespace Arguments

/-- The environment can only switch colors off. -/
theorem color_overlay (variableText : Option String) (color : Bool) :
    (variableText.bind fun text => Setting.readColor? .environment text color).getD color =
      (!(variableText.any (· ≠ "")) && color) := by
  cases variableText with
  | none => rfl
  | some text => by_cases empty : text = "" <;> simp [Setting.readColor?, empty]

/-- Arguments on top of the loaded layers give the settings in force. -/
theorem override_overlay (arguments : Arguments) (positional : Option Nat)
    (supply : Layer → Settings.Supply) :
    arguments.override positional
        (Settings.overlay .environment (supply .environment)
          (Settings.overlay .file (supply .file) {})) =
      arguments.inForce positional supply := by
  unfold override inForce Settings.overlay
  simp only [Settings.topmost?_cons, Settings.topmost?_nil, Option.or_none, Option.getD_or]
  rw [color_overlay]

end Arguments

namespace Job

variable {settings : Settings} {traced : Bool} {job : Job}

/-- A job is built from a text that can be had, a tape with a cell and memory
for it, and a program whose brackets match, and takes everything else over. -/
theorem build_eq_ok_iff :
    build surroundings source traced settings = .ok job ↔
      (∃ text, sourceText surroundings source = .ok text ∧
        Program.parse text = .ok job.program ∧
        job.lines = text.toList.count '\n' + 1) ∧
      surroundings.memoryError? settings.tapeLength = none ∧
      Tape.blank? settings.tapeLength = some job.tape ∧
      job.options = {
        mode := settings.mode
        prompt := surroundings.prompt
        stepLimit := settings.stepLimit
        traced := traced } ∧
      job.timeout = settings.timeout ∧
      job.color = (settings.color && surroundings.terminal) := by
  rw [build]
  rcases job with ⟨program, lines, tape, options, timeout, color⟩
  cases sourceText surroundings source with
  | error refusal =>
    refine ⟨nofun, ?_⟩
    rintro ⟨⟨text, ⟨⟩, -⟩, -⟩
  | ok text =>
    cases surroundings.memoryError? settings.tapeLength with
    | some error =>
      refine ⟨nofun, ?_⟩
      rintro ⟨-, ⟨⟩, -⟩
    | none =>
      cases Tape.blank? settings.tapeLength with
      | none =>
        refine ⟨nofun, ?_⟩
        rintro ⟨-, -, ⟨⟩, -⟩
      | some made =>
        dsimp only
        cases parsed : Program.parse text with
        | error error =>
          refine ⟨nofun, ?_⟩
          rintro ⟨⟨other, ⟨⟩, found, -⟩, -⟩
          cases parsed.symm.trans found
        | ok found =>
          constructor
          · rintro ⟨⟩
            exact ⟨⟨text, rfl, parsed, rfl⟩, rfl, rfl, rfl, rfl, rfl⟩
          · rintro ⟨⟨other, ⟨⟩, same, ⟨⟩⟩, -, ⟨⟩, ⟨⟩, ⟨⟩, ⟨⟩⟩
            cases parsed.symm.trans same
            rfl

/-- After the choice of the program only a fault of a layer stands between
the arguments and the settings in force. -/
theorem settle_of_choice (chosen : arguments.choice? = some (source, positional)) :
    settle surroundings arguments =
      match Settings.loadFault? surroundings.supply with
      | some error => .error (.settings error)
      | none => build surroundings source arguments.traced
          (arguments.inForce positional surroundings.supply) := by
  have layers : Settings.supply surroundings.environment surroundings.file? =
      surroundings.supply := rfl
  rw [settle, chosen]
  dsimp only
  rw [Settings.load_eq, layers, ← Arguments.override_overlay]
  cases Settings.loadFault? surroundings.supply <;> rfl

/-- A text that cannot be had is the fault of a file. -/
theorem sourceText_error {refusal : Refusal}
    (failed : sourceText surroundings source = .error refusal) :
    ∃ error, refusal = .file error := by
  cases source with
  | inline code => cases failed
  | file path =>
    rw [sourceText] at failed
    cases read : surroundings.readProgram path with
    | ok text =>
      rw [read] at failed
      cases failed
    | error error =>
      rw [read] at failed
      cases failed
      exact ⟨error, rfl⟩

/-- The stages behind the settings do not complain of settings. -/
theorem build_ne_settings (error : InvalidSetting) :
    build surroundings source traced settings ≠ .error (.settings error) := by
  rw [build]
  cases found : sourceText surroundings source with
  | error refusal =>
    rcases sourceText_error found with ⟨reason, rfl⟩
    exact nofun
  | ok text =>
    dsimp only
    cases surroundings.memoryError? settings.tapeLength with
    | some error => exact nofun
    | none =>
      cases Tape.blank? settings.tapeLength with
      | none => exact nofun
      | some tape => cases Program.parse text <;> exact nofun

theorem prepare_of_unhelped (unhelped : arguments.help = false) :
    prepare surroundings arguments = settle surroundings arguments := by
  rw [prepare, unhelped]
  rfl

/-- The settings that a run is subject to are those of the highest layers,
setting by setting, and a text that is no value stands in the way even where
a higher layer has another one.  The texts of the settings file are the last
values in its section `run`. -/
theorem prepare_by_layers (unhelped : arguments.help = false)
    (chosen : arguments.choice? = some (source, positional)) :
    (∀ setting value, surroundings.supply .file setting = some value ↔
      ∃ content,
        Settings.fileText? surroundings.environment surroundings.file? = some content ∧
        Settings.LastValue (Settings.fileLines content) (setting.key .file).toList
          value.toList) ∧
    (∀ error, prepare surroundings arguments = .error (.settings error) ↔
      Settings.loadFault? surroundings.supply = some error) ∧
    ((∃ error, prepare surroundings arguments = .error (.settings error)) ↔
      ∃ layer setting text, surroundings.supply layer setting = some text ∧
        setting.accepts layer text = false) ∧
    ((∀ layer setting text, surroundings.supply layer setting = some text →
        setting.accepts layer text = true) →
      prepare surroundings arguments =
        build surroundings source arguments.traced
          (arguments.inForce positional surroundings.supply) ∧
      ∀ job, prepare surroundings arguments = .ok job →
        Tape.blank? (arguments.inForce positional surroundings.supply).tapeLength =
          some job.tape ∧
        job.options = {
          mode := (arguments.inForce positional surroundings.supply).mode
          prompt := surroundings.prompt
          stepLimit := (arguments.inForce positional surroundings.supply).stepLimit
          traced := arguments.traced } ∧
        job.timeout = (arguments.inForce positional surroundings.supply).timeout ∧
        job.color = ((arguments.inForce positional surroundings.supply).color &&
          surroundings.terminal)) := by
  have settled : prepare surroundings arguments =
      match Settings.loadFault? surroundings.supply with
      | some error => .error (.settings error)
      | none => build surroundings source arguments.traced
          (arguments.inForce positional surroundings.supply) :=
    (prepare_of_unhelped unhelped).trans (settle_of_choice chosen)
  have refused (error : InvalidSetting) :
      prepare surroundings arguments = .error (.settings error) ↔
        Settings.loadFault? surroundings.supply = some error := by
    rw [settled]
    cases Settings.loadFault? surroundings.supply with
    | some other => simp
    | none => exact ⟨fun same => absurd same (build_ne_settings error), nofun⟩
  refine ⟨fun setting value => Settings.supply_file_eq_some_iff _ _, refused, ?_, ?_⟩
  · rw [← Settings.exists_loadFault?_iff]
    exact exists_congr refused
  · intro sound
    rw [settled, Settings.loadFault?_eq_none_iff.mpr sound]
    exact ⟨rfl, fun job built => (build_eq_ok_iff.mp built).2.2⟩

/-- Every layer has something to say here.  The positional argument, the
option for the step limit and the variables win over the file, and only the
color is left to it: the job has five cells, numbers, nine steps and seventy
milliseconds, and no color.  A limit in the file that is no number is reported
although the option would win. -/
theorem layers_below_arguments :
    let surroundings (content : String) : Surroundings :=
      { program := "bftape"
        environment := fun name =>
          if name = "HOME" then some "home"
          else if name = "BFTAPE_MODE" then some " Numeric "
          else if name = "BFTAPE_TIMEOUT_MS" then some "70"
          else none
        file? := fun path =>
          if path = "home/.config/bftape.toml" then some (Text.encode content) else none }
    let arguments : Arguments := { path := some "5", code := some "+.", stepLimit := some 9 }
    let sound : String :=
      "[run]\ntape_len = 7\ntimeout_ms = 20\nmax_steps = 3\ncolor = false"
    let faulty : String := "[run]\ntape_len = 7\nmax_steps = -3"
    arguments.help = false ∧ arguments.choice? = some (.inline "+.", some 5) ∧
      (∀ layer setting text, (surroundings sound).supply layer setting = some text →
        setting.accepts layer text = true) ∧
      prepare (surroundings sound) arguments = .ok {
        program := #[.command .increment, .command .output]
        lines := 1
        tape := ⟨#[0, 0, 0, 0, 0], 0, by decide⟩
        options := { mode := .numeric, stepLimit := some 9 }
        timeout := some 70
        color := false } ∧
      prepare (surroundings faulty) arguments = .error (.settings ⟨"max_steps", "-3"⟩) := by
  intro surroundings arguments sound faulty
  have chosen : arguments.choice? = some (.inline "+.", some 5) := by decide +kernel
  have silent : Settings.loadFault? (surroundings sound).supply = none := by decide +kernel
  have inForce : arguments.inForce (some 5) (surroundings sound).supply =
      { tapeLength := 5, mode := .numeric, stepLimit := some 9, timeout := some 70,
        color := false } := by decide +kernel
  have accepted := Settings.loadFault?_eq_none_iff.mp silent
  rcases @prepare_by_layers (surroundings sound) _ _ _ rfl chosen with ⟨-, -, -, settled⟩
  rcases @prepare_by_layers (surroundings faulty) _ _ _ rfl chosen with ⟨-, refused, -, -⟩
  refine ⟨rfl, chosen, accepted, ?_, (refused _).mpr (by decide +kernel)⟩
  rw [(settled accepted).1, inForce]
  exact build_eq_ok_iff.mpr ⟨⟨"+.", rfl, rfl, rfl⟩, rfl, rfl, rfl, rfl, rfl⟩

end Job
end CommandLine
end RingTape
