import RingTape.Proofs.LayerSteps
import RingTape.Settings.Sources

namespace RingTape

/-!
# Sources in any order, and again

How far a source is read depends on its texts alone.  So a source stands for
a row of settings that it gives values to, and for one answer, whatever the
settings were before (`Settings.exists_read`).

This has two consequences.  A setting that a source has changed is what one
of its texts means, which carries whatever the meanings of texts guarantee
through any number of sources, refused ones included.  And a source that is
applied again gives the same values to the same settings
(`Settings.apply_apply`).
-/

/-- No text means an empty tape. -/
theorem Setting.Means.positive {layer : Layer} {text : List Char} {length : Nat}
    (means : Means layer .tapeLength text (.length length)) : 1 ≤ length := by
  cases means with
  | tapeLength _ _ positive _ => exact positive

/-- No text of an environment asks for colors. -/
theorem Setting.Means.colorless {text : List Char} {wanted : Bool}
    (means : Means .environment .color text (.color wanted)) : wanted = false := by
  cases means with
  | noColor => rfl

namespace Settings

variable {layer : Layer} {setting : Setting} {start : Settings}

/-- Settings are known by their values. -/
theorem eq_of_value {first second : Settings}
    (same : ∀ setting, first.value setting = second.value setting) : first = second := by
  rcases first with ⟨length, mode, limit, time, color⟩
  rcases second with ⟨length', mode', limit', time', color'⟩
  cases same .tapeLength
  cases same .mode
  cases same .stepLimit
  cases same .timeout
  cases same .color
  rfl

/-- A layer reads the same settings with the same answer from every start. -/
theorem exists_read (layer : Layer) (supplied : String → Option String) :
    ∃ (answer : Except InvalidSetting Unit) (order : List Setting), order.Nodup ∧
      (∀ setting ∈ order, Sound layer (Supplies layer supplied) setting) ∧
      ∀ start : Settings, start.applyLayer layer supplied =
        (answer, order.foldl (amend layer (named layer supplied)) start) := by
  have single : Setting.all.Nodup := by decide
  cases found : firstFault? layer (named layer supplied) with
  | none =>
    have sound (setting : Setting) := firstFault?_eq_none_iff.mp found setting
    exact ⟨.ok (), Setting.all, single,
      fun setting _ => fault?_eq_none_iff_sound.mp (sound setting),
      fun start => assignAll_of_sound start fun setting _ => sound setting⟩
  | some error =>
    rcases List.findSome?_eq_some_iff.mp found with
      ⟨before, setting, after, whole, faulty, sound⟩
    refine ⟨.error error, before, ?_, fun setting member =>
      fault?_eq_none_iff_sound.mp (sound setting member), fun start => ?_⟩
    · rw [whole] at single
      exact (List.nodup_append.mp single).1
    · rw [applyLayer, whole]
      exact assignAll_of_fault start sound faulty

/-- A setting is what it was before a source was applied, or what a text
means in the layer of the source. -/
theorem value_apply (start : Settings) (source : Source) (setting : Setting) :
    (start.apply source).2.value setting = start.value setting ∨
      ∃ text : String,
        Setting.Means source.layer setting text.toList ((start.apply source).2.value setting) := by
  rcases exists_read source.layer source.supplied with ⟨answer, order, single, sound, reads⟩
  rcases takes_foldl start single sound with ⟨taken, kept⟩
  rw [apply_eq, reads]
  by_cases member : setting ∈ order
  · by_cases given : ∃ text, Supplies source.layer source.supplied setting text
    · rcases given with ⟨text, given⟩
      exact .inr ⟨text, (taken setting member).supplied text given⟩
    · exact .inl ((taken setting member).absent fun text given' => given ⟨text, given'⟩)
  · exact .inl (kept setting member)

/-- Applied again, a source gives the same answer and changes nothing. -/
theorem apply_apply (start : Settings) (source : Source) :
    (start.apply source).2.apply source = start.apply source := by
  rcases exists_read source.layer source.supplied with ⟨answer, order, single, sound, reads⟩
  rw [apply_eq, apply_eq, reads, reads]
  refine congrArg (Prod.mk answer) (eq_of_value fun setting => ?_)
  rcases takes_foldl start single sound with ⟨taken, -⟩
  rcases takes_foldl (order.foldl (amend source.layer (named source.layer source.supplied)) start)
    single sound with ⟨again, keptAgain⟩
  by_cases member : setting ∈ order
  · by_cases given : ∃ text, Supplies source.layer source.supplied setting text
    · rcases given with ⟨text, given⟩
      exact ((again setting member).supplied text given).unique
        ((taken setting member).supplied text given)
    · exact (again setting member).absent fun text given' => given ⟨text, given'⟩
  · exact keptAgain setting member

/-! ## Many sources -/

/-- What every source preserves, any number of them preserve. -/
theorem afterAll_preserves {motive : Settings → Prop}
    (step : ∀ settings source, motive settings → motive (settings.apply source).2)
    (sources : List Source) (begun : motive start) : motive (afterAll sources start) := by
  induction sources generalizing start with
  | nil => exact begun
  | cons source rest ih => exact ih (step start source begun)

theorem positive_apply (source : Source) (positive : 1 ≤ start.tapeLength) :
    1 ≤ (start.apply source).2.tapeLength := by
  rcases value_apply start source .tapeLength with same | ⟨text, means⟩
  · rwa [Setting.Value.length.inj same]
  · exact means.positive

/-- A limit that is set stays set, though its bound may change. -/
theorem limited_apply (limit : setting = .stepLimit ∨ setting = .timeout) (source : Source)
    (limited : start.value setting ≠ .limit none) :
    (start.apply source).2.value setting ≠ .limit none := by
  rcases value_apply start source setting with same | ⟨text, means⟩
  · rwa [same]
  · rcases (Setting.means_limit_iff limit).mp means with ⟨bound, -, same⟩
    rw [same]
    exact nofun

theorem limited_afterAll (limit : setting = .stepLimit ∨ setting = .timeout)
    (sources : List Source) (limited : start.value setting ≠ .limit none) :
    (afterAll sources start).value setting ≠ .limit none :=
  @afterAll_preserves start (fun settings => settings.value setting ≠ .limit none)
    (fun _ source limited => limited_apply limit source limited) sources limited

theorem color_applyEnvironment (held : String → Option String) (plain : start.color = false) :
    (start.applyEnvironment held).2.color = false := by
  rcases value_apply start (.environment held) .color with same | ⟨text, means⟩
  · exact (Setting.Value.color.inj same).trans plain
  · exact means.colorless

/-- Settings that come from the defaults by any sources, refused or not, can
be used: there is a tape of their length.  Limits that are set stay set,
whatever sources follow, no environment switches colors on, and a source that
is applied again gives the same answer and leaves the settings alone. -/
theorem usable_afterAll (sources : List Source) :
    let reached := afterAll sources {}
    1 ≤ reached.tapeLength ∧ (∃ tape, Tape.blank? reached.tapeLength = some tape) ∧
    (∀ more, (reached.stepLimit ≠ none → (afterAll more reached).stepLimit ≠ none) ∧
      (reached.timeout ≠ none → (afterAll more reached).timeout ≠ none)) ∧
    (∀ held, reached.color = false → (reached.applyEnvironment held).2.color = false) ∧
    ∀ source, (reached.apply source).2.apply source = reached.apply source := by
  intro reached
  have positive : 1 ≤ reached.tapeLength :=
    @afterAll_preserves {} (fun settings => 1 ≤ settings.tapeLength)
      (fun _ source positive => positive_apply source positive) sources (by decide)
  have limits {bound : Option Nat} : bound ≠ none ↔ Setting.Value.limit bound ≠ .limit none := by
    rw [ne_eq, ne_eq, Setting.Value.limit.injEq]
  refine ⟨positive, Tape.exists_blank? (Nat.ne_of_gt positive), fun more => ⟨fun set => ?_,
    fun set => ?_⟩, fun held => color_applyEnvironment held, apply_apply reached⟩
  · exact limits.mpr (@limited_afterAll .stepLimit reached (.inl rfl) more (limits.mp set))
  · exact limits.mpr (@limited_afterAll .timeout reached (.inr rfl) more (limits.mp set))

/-- A file that is refused at its last setting has set a limit, which later
refusals leave set. -/
theorem usable_after_refusals :
    ∃ held : String → Option String, held "BFTAPE_TAPE_LEN" = some "0" ∧
      ({} : Settings).apply (.file "[run]\nmax_steps = 7\ncolor = red") =
        (.error ⟨"color", "red"⟩, { stepLimit := some 7 }) ∧
      ∀ reached : Settings, reached = { stepLimit := some 7 } →
        (∃ tape, Tape.blank? reached.tapeLength = some tape) ∧
        (afterAll [.environment held, .file "[run]\nmax_steps = x"] reached).stepLimit ≠ none ∧
        (reached.apply (.environment held)).2.apply (.environment held) =
          reached.apply (.environment held) := by
  refine ⟨fun key => if key = "BFTAPE_TAPE_LEN" then some "0" else none, rfl, by decide, ?_⟩
  rintro reached rfl
  rcases usable_afterAll [.file "[run]\nmax_steps = 7\ncolor = red"] with
    ⟨-, cells, limits, -, again⟩
  exact ⟨cells, (limits _).1 (by decide), again _⟩

end Settings
end RingTape
