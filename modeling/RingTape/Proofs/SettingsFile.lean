import RingTape.Proofs.LastAssignments
import RingTape.Settings.Render

namespace RingTape
namespace Settings

/-!
# Reading settings files, and reading them back

A settings file is read as the last value of each key, so two files with the
same last values do the same to all settings.  Edits keep the last values,
and settings that were written to a file are found again in it, whatever
edits were made to the file since (`applyFile_of_lastValues`).

Written settings are read back line by line: each line of a written file is
a key line for its setting (`isKeyLine_entryLine`), so the assignments found
are the ones that were written (`fileAssignments_render`), and each of them is
read as the value that it was written for (`assign?_text?`).
-/

open FileLine (IsHeader IsComment Writes IsKeyLine ofText)

variable {settings start : Settings} {setting : Setting} {order : List Setting} {text : String}

/-! ## The lines of a written file -/

/-- The assignments that are written for some settings. -/
def written (settings : Settings) (order : List Setting) : List (String × String) :=
  order.filterMap fun setting =>
    (settings.text? setting).map fun text => (setting.key .file, text)

/-- The line that is written for an assignment, without its end. -/
def entryLine (entry : String × String) : List Char :=
  (entry.1.toList ++ [' ']) ++ '=' :: ([' '] ++ entry.2.toList)

theorem toList_line (key text : String) :
    (line key text).toList = entryLine (key, text) ++ ['\n'] := by
  simp only [line, entryLine, String.toList_append, List.append_assoc]
  rfl

theorem solid_of_all {mark : Char} {text : List Char}
    (checked : (text.all fun character => !Text.isBlank character && character != mark) = true) :
    ∀ character ∈ text, Text.isBlank character = false ∧ character ≠ mark := by
  simpa using checked

/-- A key has neither blanks nor equals signs. -/
theorem solid_key (setting : Setting) :
    ∀ character ∈ (setting.key .file).toList,
      Text.isBlank character = false ∧ character ≠ '=' := by
  apply solid_of_all
  cases setting <;> decide

theorem head?_key (setting : Setting) :
    (setting.key .file).toList.head?.or (some '=') ∉ [some '[', some '#'] := by
  cases setting <;> decide

theorem solid_numeral (value : Nat) :
    ∀ character ∈ (String.ofList (Text.numeral value)).toList,
      Text.isBlank character = false ∧ character ≠ '"' := by
  intro character member
  rw [String.toList_ofList] at member
  have digit := Text.isDigit_of_mem_numeral member
  refine ⟨Text.isBlank_of_isDigit digit, ?_⟩
  rintro rfl
  cases digit

/-- The text written for a setting has neither blanks nor quotes. -/
theorem solid_text (shown : settings.text? setting = some text) :
    ∀ character ∈ text.toList, Text.isBlank character = false ∧ character ≠ '"' := by
  cases setting with
  | tapeLength =>
    cases shown
    exact solid_numeral _
  | mode =>
    cases shown
    apply solid_of_all
    cases settings.mode <;> decide
  | stepLimit =>
    obtain ⟨limit, -, rfl⟩ := Option.map_eq_some_iff.mp shown
    exact solid_numeral limit
  | timeout =>
    obtain ⟨time, -, rfl⟩ := Option.map_eq_some_iff.mp shown
    exact solid_numeral time
  | color =>
    cases shown
    apply solid_of_all
    cases settings.color <;> decide

theorem trimmed_text (shown : settings.text? setting = some text) : Text.Trimmed text.toList :=
  Text.trimmed_of_solid fun character member => (solid_text shown character member).1

theorem not_isQuoted_text (shown : settings.text? setting = some text) :
    ¬ FileLine.IsQuoted text.toList := by
  rintro ⟨value, same⟩
  have mark : '"' ∈ text.toList := by
    rw [same]
    exact List.mem_cons_self
  exact (solid_text shown '"' mark).2 rfl

theorem writes_entryLine (trimmed : Text.Trimmed text.toList) :
    Writes (entryLine (setting.key .file, text)) (setting.key .file).toList text.toList where
  keyTrimmed := Text.trimmed_of_solid fun character member => (solid_key setting character member).1
  textTrimmed := trimmed
  parts := by
    refine ⟨_, _, rfl, ?_, (Text.padded_refl _).append (by decide),
      (Text.padded_refl _).prepend (by decide)⟩
    rw [List.mem_append, not_or]
    exact ⟨fun member => (solid_key setting '=' member).2 rfl, by decide⟩

/-- What is written for a setting is a key line of that setting. -/
theorem isKeyLine_entryLine (trimmed : Text.Trimmed text.toList) :
    IsKeyLine (entryLine (setting.key .file, text)) (setting.key .file).toList text.toList := by
  have starts := head?_key setting
  rw [← (writes_entryLine trimmed).head?_trim, List.mem_cons, List.mem_singleton, not_or] at starts
  exact ⟨writes_entryLine trimmed, fun header => starts.1 (FileLine.isHeader_iff.mp header).1,
    fun comment => starts.2 (FileLine.isComment_iff.mp comment)⟩

theorem ofText_entryLine (shown : settings.text? setting = some text) :
    ofText (entryLine (setting.key .file, text)) =
      .assignment (setting.key .file).toList text.toList := by
  rw [FileLine.ofText_of_isKeyLine (isKeyLine_entryLine (trimmed_text shown)),
    FileLine.unquoted_of_not_isQuoted (not_isQuoted_text shown)]

theorem notMem_entryLine (outside : '\n' ∉ text.toList) :
    '\n' ∉ entryLine (setting.key .file, text) := by
  have outsideKey : '\n' ∉ (setting.key .file).toList := fun member =>
    nomatch (solid_key setting '\n' member).1
  simp [entryLine, outsideKey, outside]

theorem notMem_text (shown : settings.text? setting = some text) : '\n' ∉ text.toList :=
  fun member => nomatch (solid_text shown '\n' member).1

/-- What holds of each entry that can be written holds of the written ones. -/
theorem forall_written {property : String × String → Prop}
    (each : ∀ setting text, settings.text? setting = some text →
      property (setting.key .file, text)) :
    ∀ entry ∈ written settings order, property entry := by
  intro entry member
  obtain ⟨setting, -, found⟩ := List.mem_filterMap.mp member
  obtain ⟨text, shown, rfl⟩ := Option.map_eq_some_iff.mp found
  exact each setting text shown

theorem fileLines_render (settings : Settings) (order : List Setting) :
    fileLines (settings.render order) =
      "[run]".toList :: ((written settings order).map entryLine ++ [[]]) := by
  have entries : (order.filterMap fun setting =>
      (settings.text? setting).map (line (setting.key .file))) =
        (written settings order).map fun entry => line entry.1 entry.2 := by
    rw [written, List.map_filterMap]
    simp only [Option.map_map]
    rfl
  have lines : (settings.render order).toList =
      "[run]".toList ++ '\n' ::
        ((written settings order).flatMap (fun entry => entryLine entry ++ ['\n']) ++ []) := by
    rw [render, entries, String.toList_append, String.toList_join, List.flatMap_map,
      List.append_nil]
    simp only [toList_line]
    rfl
  rw [fileLines, lines, List.splitOn_append_cons_self_of_not_mem (by decide),
    Text.splitOn_flatMap (forall_written fun _ _ shown => notMem_entryLine (notMem_text shown))]
  rfl

theorem assignments_entryLines {entries : List (String × String)}
    (each : ∀ entry ∈ entries,
      ofText (entryLine entry) = .assignment entry.1.toList entry.2.toList) :
    FileLine.assignments true ((entries.map entryLine ++ [[]]).map ofText) = entries := by
  induction entries with
  | nil => rfl
  | cons entry rest ih =>
    rw [List.map_cons, List.cons_append, List.map_cons, each entry List.mem_cons_self,
      FileLine.assignments, if_pos rfl, String.ofList_toList, String.ofList_toList,
      ih fun entry member => each entry (List.mem_cons_of_mem _ member)]

/-- Reading a written file finds what was written. -/
theorem fileAssignments_render (settings : Settings) (order : List Setting) :
    fileAssignments (settings.render order) = written settings order := by
  change FileLine.assignments false ((fileLines (settings.render order)).map ofText) = _
  rw [fileLines_render]
  exact assignments_entryLines (forall_written fun _ _ => ofText_entryLine)

/-! ## The values of a written file -/

theorem key_eq_iff {first second : Setting} :
    first.key .file = second.key .file ↔ first = second := by
  cases first <;> cases second <;> decide

theorem lastAssigned?_written_singleton (settings : Settings) (first setting : Setting) :
    lastAssigned? (written settings [first]) (setting.key .file) =
      if first = setting then settings.text? setting else none := by
  by_cases same : first = setting
  · subst same
    cases shown : settings.text? first <;> simp [written, lastAssigned?, shown]
  · cases shown : settings.text? first <;>
      simp [written, lastAssigned?, shown, key_eq_iff, same]

/-- A file gives each setting that was written to it the text written. -/
theorem lastAssigned?_written (settings : Settings) (order : List Setting) (setting : Setting) :
    lastAssigned? (written settings order) (setting.key .file) =
      if setting ∈ order then settings.text? setting else none := by
  induction order with
  | nil => rfl
  | cons first rest ih =>
    have split : written settings (first :: rest) =
        written settings [first] ++ written settings rest :=
      @List.filterMap_append _ _ [first] rest _
    rw [split, lastAssigned?_append, ih, lastAssigned?_written_singleton]
    by_cases now : first = setting
    · -- A setting that is written twice is written with the same text.
      subst now
      rw [if_pos rfl, if_pos List.mem_cons_self]
      split
      · exact Option.or_self
      · exact Option.none_or
    · rw [if_neg now, Option.or_none]
      simp only [List.mem_cons, Ne.symm now, false_or]

/-- Settings with one of them taken over from others, as far as it is set
there. -/
def adopt (settings start : Settings) : Setting → Settings
  | .tapeLength => { start with tapeLength := settings.tapeLength }
  | .mode => { start with mode := settings.mode }
  | .stepLimit => { start with stepLimit := settings.stepLimit.or start.stepLimit }
  | .timeout => { start with timeout := settings.timeout.or start.timeout }
  | .color => { start with color := settings.color }

theorem adopt_of_none (hidden : settings.text? setting = none) :
    settings.adopt start setting = start := by
  cases setting with
  | tapeLength => cases hidden
  | mode => cases hidden
  | stepLimit => rw [adopt, Option.map_eq_none_iff.mp hidden, Option.none_or]
  | timeout => rw [adopt, Option.map_eq_none_iff.mp hidden, Option.none_or]
  | color => cases hidden

theorem readLimit?_numeral {limit : Nat} (small : limit < Text.wordBound) :
    Setting.readLimit? .file (String.ofList (Text.numeral limit)) = some limit := by
  rw [Setting.readLimit?, String.toList_ofList, Text.unsigned?_numeral small]

/-- A text is read as the value that it was written for. -/
theorem assign?_text? (storable : Storable settings) (shown : settings.text? setting = some text) :
    setting.assign? .file start text = some (settings.adopt start setting) := by
  cases setting with
  | tapeLength =>
    have trimmed := Text.trim_of_trimmed (trimmed_text shown)
    cases shown
    rw [Setting.assign?, Setting.readLength?, trimmed, String.toList_ofList,
      Text.unsigned?_numeral storable.tapeLength,
      Option.filter_some_pos (by simpa using storable.cells)]
    rfl
  | mode =>
    cases shown
    have read : Mode.read? settings.mode.name = some settings.mode := by
      cases settings.mode <;> decide
    rw [Setting.assign?, read]
    rfl
  | stepLimit =>
    obtain ⟨limit, set, rfl⟩ := Option.map_eq_some_iff.mp shown
    rw [Setting.assign?, readLimit?_numeral (storable.stepLimit limit set), adopt, set]
    rfl
  | timeout =>
    obtain ⟨time, set, rfl⟩ := Option.map_eq_some_iff.mp shown
    rw [Setting.assign?, readLimit?_numeral (storable.timeout time set), adopt, set]
    rfl
  | color =>
    cases shown
    rw [Setting.assign?, adopt]
    cases settings.color <;> rfl

/-- Reading texts as they were written takes the settings over one by one. -/
theorem assignAll_text? (storable : Storable settings) {supplied : String → Option String}
    (same : ∀ setting : Setting, supplied (setting.key .file) = settings.text? setting)
    (order : List Setting) (start : Settings) :
    assignAll .file supplied order start = (.ok (), order.foldl settings.adopt start) := by
  induction order generalizing start with
  | nil => rfl
  | cons setting rest ih =>
    rw [assignAll, same, List.foldl_cons, ← ih]
    cases shown : settings.text? setting with
    | none => rw [adopt_of_none shown]
    | some text =>
      dsimp only
      rw [assign?_text? storable shown]

/-- Only what is supplied for the settings that are read matters. -/
theorem assignAll_congr {layer : Layer} {supplied other : String → Option String}
    {order : List Setting}
    (same : ∀ setting ∈ order, supplied (setting.key layer) = other (setting.key layer))
    (start : Settings) :
    assignAll layer supplied order start = assignAll layer other order start := by
  induction order generalizing start with
  | nil => rfl
  | cons setting rest ih =>
    have rest := ih fun setting member => same setting (List.mem_cons_of_mem _ member)
    rw [assignAll, assignAll, same setting List.mem_cons_self]
    cases other (setting.key layer) with
    | none => exact rest start
    | some text =>
      dsimp only
      cases setting.assign? layer start text with
      | none => rfl
      | some changed => exact rest changed

/-! ## Reading a file -/

theorem applyFile_congr {content other : String}
    (same : ∀ setting : Setting, lookup? false (fileLines content) (setting.key .file) =
      lookup? false (fileLines other) (setting.key .file)) (start : Settings) :
    start.applyFile content = start.applyFile other :=
  assignAll_congr (fun setting _ => same setting) start

/-- Reading a written file takes over all settings that are set. -/
theorem applyFile_render (storable : Storable settings) (all : ∀ setting, setting ∈ order)
    (start : Settings) :
    start.applyFile (settings.render order) = (.ok (), settings.upon start) := by
  refine assignAll_text? storable (fun setting => ?_) Setting.all start
  rw [fileAssignments_render, lastAssigned?_written, if_pos (all setting)]

/-- A settings file is read as the last value of each key in its section
`run`.  No edit makes a difference, and settings that were written to a file
are found in it again; a limit that is not set leaves the one before. -/
theorem applyFile_of_lastValues :
    (∀ content, ∃ supplied : String → Option String,
      (∀ (setting : Setting) (value : String), supplied (setting.key .file) = some value ↔
        LastValue (fileLines content) (setting.key .file).toList value.toList) ∧
      ∀ start : Settings, start.applyFile content = start.applyLayer .file supplied) ∧
    (∀ content other,
      (∀ (setting : Setting) (value : String),
        LastValue (fileLines content) (setting.key .file).toList value.toList ↔
          LastValue (fileLines other) (setting.key .file).toList value.toList) →
      ∀ start : Settings, start.applyFile content = start.applyFile other) ∧
    (∀ content other, SameButForEdits content other →
      ∀ start : Settings, start.applyFile content = start.applyFile other) ∧
    ∀ settings : Settings, Storable settings →
      ∀ order : List Setting, (∀ setting, setting ∈ order) →
      ∀ content, SameButForEdits (settings.render order) content →
        (∀ start : Settings, start.applyFile content = (.ok (), settings.upon start)) ∧
          ({} : Settings).applyFile content = (.ok (), settings) := by
  refine ⟨fun content => ?_, fun content other same => ?_, fun content other same => ?_,
    fun settings storable order all content same => ?_⟩
  · exact ⟨lookup? false (fileLines content), fun setting value => lookup?_eq_some_iff _,
      fun start => rfl⟩
  · refine applyFile_congr fun setting => Option.ext fun value => ?_
    rw [lookup?_eq_some_iff, lookup?_eq_some_iff]
    exact same setting value
  · exact applyFile_congr (lookup?_of_sameButForEdits same)
  · have read (start : Settings) : start.applyFile content = (.ok (), settings.upon start) := by
      rw [← applyFile_render storable all start]
      exact applyFile_congr (fun setting => (lookup?_of_sameButForEdits same setting).symm) start
    refine ⟨read, ?_⟩
    rw [read, upon, Option.or_none, Option.or_none]

/-- A written file in which two lines have changed places, one text is in
quotes, another section was put in, a line was put before the one that
replaces it, one line ends in a carriage return and the last end of line is
missing. -/
theorem sameButForEdits_of_noise :
    SameButForEdits
      (render { tapeLength := 8, mode := .numeric, stepLimit := some 40, color := false }
        [.color, .tapeLength, .mode, .timeout, .stepLimit])
      ("[run]\r\ncolor = maybe\ncolor = false\n[other]\nmode = char\n[run]\n" ++
        "mode=\"numeric\"\ntape_len = 8\nmax_steps = 40") := by
  have swapped := @Retouched.at
    ["[run]".toList, "color = false".toList]
    ["tape_len = 8".toList, "mode = numeric".toList]
    ["mode = numeric".toList, "tape_len = 8".toList] ["max_steps = 40".toList, []]
    (@Edit.swapped _ _ _ "tape_len".toList "mode".toList "8".toList "numeric".toList
      (by decide +kernel) (by decide +kernel) (by decide))
  have quoted := @Retouched.at
    ["[run]".toList, "color = false".toList] ["mode = numeric".toList]
    ["mode=\"numeric\"".toList] ["tape_len = 8".toList, "max_steps = 40".toList, []]
    (@Edit.quoted _ _ _ "mode".toList "numeric".toList
      (by decide +kernel) (by decide) (by decide +kernel))
  have split := @Retouched.at
    ["[run]".toList, "color = false".toList] []
    ["[other]".toList, "mode = char".toList, "[run]".toList]
    ["mode=\"numeric\"".toList, "tape_len = 8".toList, "max_steps = 40".toList, []]
    (@Edit.split _ _ "other".toList "[run]".toList ["mode = char".toList]
      (by decide +kernel) (by decide +kernel) (by decide) (by decide +kernel) (by decide +kernel))
  have superseded := @Retouched.at
    ["[run]".toList] ["color = false".toList] ["color = maybe".toList, "color = false".toList]
    ["[other]".toList, "mode = char".toList, "[run]".toList, "mode=\"numeric\"".toList,
      "tape_len = 8".toList, "max_steps = 40".toList, []]
    (@Edit.superseded _ _ _ "color".toList "maybe".toList "false".toList []
      (by decide +kernel) (by decide +kernel) (by decide +kernel))
  have padded := @Retouched.at
    [] ["[run]".toList] ["[run]\r".toList]
    ["color = maybe".toList, "color = false".toList, "[other]".toList, "mode = char".toList,
      "[run]".toList, "mode=\"numeric\"".toList, "tape_len = 8".toList, "max_steps = 40".toList, []]
    (.padded (Text.padded_refl _) ⟨[], ['\r'], by decide, by decide, by decide⟩)
  have ended := @Retouched.at
    ["[run]\r".toList, "color = maybe".toList, "color = false".toList, "[other]".toList,
      "mode = char".toList, "[run]".toList, "mode=\"numeric\"".toList, "tape_len = 8".toList,
      "max_steps = 40".toList]
    [] [[]] [] (.blank Text.allBlank_nil)
  exact (congrArg₂ (Relation.EqvGen Retouched) (by decide +kernel) (by decide +kernel)).mpr
    (.trans _ _ _ (.rel _ _ swapped) (.trans _ _ _ (.rel _ _ quoted)
      (.trans _ _ _ (.rel _ _ split) (.trans _ _ _ (.rel _ _ superseded)
        (.trans _ _ _ (.rel _ _ padded) (.symm _ _ (.rel _ _ ended)))))))

/-- Such a file is read as the settings that were written. -/
theorem applyFile_of_noise :
    let settings : Settings :=
      { tapeLength := 8, mode := .numeric, stepLimit := some 40, color := false }
    let order : List Setting := [.color, .tapeLength, .mode, .timeout, .stepLimit]
    let content : String :=
      "[run]\r\ncolor = maybe\ncolor = false\n[other]\nmode = char\n[run]\n" ++
        "mode=\"numeric\"\ntape_len = 8\nmax_steps = 40"
    Storable settings ∧ (∀ setting, setting ∈ order) ∧
      SameButForEdits (settings.render order) content ∧
      (∀ (setting : Setting) (value : String),
        LastValue (fileLines (settings.render order)) (setting.key .file).toList value.toList ↔
          LastValue (fileLines content) (setting.key .file).toList value.toList) ∧
      (∀ start : Settings, start.applyFile (settings.render order) = start.applyFile content) ∧
      (∀ start : Settings, start.applyFile content = start.applyFile (settings.render order)) ∧
      (∀ start : Settings, start.applyFile content = (.ok (), settings.upon start)) ∧
      ({} : Settings).applyFile content = (.ok (), settings) := by
  have storable : Storable
      { tapeLength := 8, mode := .numeric, stepLimit := some 40, color := false } :=
    ⟨by decide, by decide, by decide, by decide⟩
  intro settings order content
  have all (setting : Setting) : setting ∈ order := by cases setting <;> decide
  have same : SameButForEdits (settings.render order) content := sameButForEdits_of_noise
  have values := lastValue_of_sameButForEdits same
  obtain ⟨-, depends, edited, back⟩ := applyFile_of_lastValues
  exact ⟨storable, all, same, values, depends _ _ values, edited _ _ (.symm _ _ same),
    back settings storable order all content same⟩

end Settings
end RingTape
