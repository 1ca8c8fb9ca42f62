import RingTape.Proofs.LayerSteps
import RingTape.Proofs.SettingsFile
import RingTape.Settings.Sources

namespace RingTape

/-!
# One setting from a file or from the environment

A text in quotes comes out of a settings file as it was put in, whatever
quotes, equals signs, number signs, brackets or blanks it holds, because only
the first equals sign and the outermost quotes of its line count
(`Settings.suppliesOnly_of_assignsQuoted`).  So a file with such a line and
an environment with the same text supply the same, and what is left of the
difference between the two layers are the blanks around limits
(`Settings.quoted_line_read_like_environment`).
-/

namespace Setting

variable {setting : Setting} {text : String} {value : Value}

/-- The layers agree on tape lengths and on modes. -/
theorem means_file_iff_of_length_or_mode (length : setting = .tapeLength ∨ setting = .mode) :
    Means .file setting text.toList value ↔ Means .environment setting text.toList value := by
  rcases length with rfl | rfl
  · rw [means_tapeLength_iff, means_tapeLength_iff]
  · rw [means_mode_iff, means_mode_iff]

end Setting

namespace Layer

variable {text : List Char} {bound : Nat}

/-- The layers agree on limits without blanks around them. -/
theorem limits_file_iff_of_trimmed (trimmed : Text.Trimmed text) :
    Limits .file text bound ↔ Limits .environment text bound := by
  constructor
  · exact fun limits => ⟨text, Text.padded_refl text, limits⟩
  · rintro ⟨numeral, padded, denotes, small⟩
    have same : text = numeral := by
      rw [← Text.trim_of_trimmed trimmed]
      exact Text.trim_eq_iff.mpr ⟨denotes.trimmed, padded⟩
    rw [same]
    exact ⟨denotes, small⟩

theorem not_limits_file (loose : ¬ Text.Trimmed text) : ¬ Limits .file text bound :=
  fun limits => loose limits.1.trimmed

end Layer

namespace Settings

open FileLine (ofText)

variable {layer : Layer} {supplied : String → Option String} {setting : Setting}
  {text content : String} {start : Settings} {value : Setting.Value}

/-! ## A layer with a single text -/

theorem applyLayer_of_suppliesOnly (only : SuppliesOnly layer supplied setting text)
    (start : Settings) :
    start.applyLayer layer supplied =
      match setting.assign? layer start text with
      | none => (.error ⟨setting.key layer, text⟩, start)
      | some reached => (.ok (), reached) := by
  have given := only.given
  have others := only.others
  cases assigned : setting.assign? layer start text <;> cases setting <;>
    simp only [applyLayer, Setting.all, assignAll, given, others, assigned, ne_eq, reduceCtorEq,
      not_false_eq_true]

/-- A text with a meaning gives its setting the value that it means. -/
theorem applyLayer_of_means (only : SuppliesOnly layer supplied setting text)
    (means : Setting.Means layer setting text.toList value) :
    start.applyLayer layer supplied = (.ok (), Setting.put start setting value) := by
  rw [applyLayer_of_suppliesOnly only,
    (Setting.assign?_eq_some_iff means.proper).mpr ⟨value, means, rfl⟩]

/-- A text without a meaning is refused. -/
theorem applyLayer_of_invalid (only : SuppliesOnly layer supplied setting text)
    (proper : layer = .environment → setting = .color → text ≠ "")
    (invalid : ¬ setting.Valid layer text) :
    start.applyLayer layer supplied = (.error ⟨setting.key layer, text⟩, start) := by
  have unread : setting.assign? layer start text = none := by
    rw [Option.eq_none_iff_forall_ne_some]
    intro changed read
    rcases (Setting.assign?_eq_some_iff proper).mp read with ⟨value, means, -⟩
    exact invalid ⟨value, means⟩
  rw [applyLayer_of_suppliesOnly only, unread]

theorem given_put (means : Setting.Means layer setting text.toList value) :
    Given layer start setting text (Setting.put start setting value) where
  value := by
    rw [Setting.value_put means]
    exact means
  others _ different := Setting.value_put_of_ne different

/-- A layer with a single text either gives the setting the value that the
text means, or it refuses the text and changes nothing. -/
theorem given_or_refused (only : SuppliesOnly layer supplied setting text)
    (proper : layer = .environment → setting = .color → text ≠ "") (start : Settings) :
    (∃ reached, start.applyLayer layer supplied = (.ok (), reached) ∧
        Given layer start setting text reached) ∨
      start.applyLayer layer supplied = (.error ⟨setting.key layer, text⟩, start) ∧
        ¬ setting.Valid layer text := by
  by_cases valid : setting.Valid layer text
  · rcases valid with ⟨value, means⟩
    exact .inl ⟨_, applyLayer_of_means only means, given_put means⟩
  · exact .inr ⟨applyLayer_of_invalid only proper valid, valid⟩

theorem exists_applied_iff (only : SuppliesOnly layer supplied setting text)
    (proper : layer = .environment → setting = .color → text ≠ "") (start : Settings) :
    (∃ reached, start.applyLayer layer supplied = (.ok (), reached)) ↔
      setting.Valid layer text := by
  constructor
  · rintro ⟨reached, applied⟩
    rcases given_or_refused only proper start with ⟨_, -, given⟩ | ⟨refused, -⟩
    · exact ⟨_, given.value⟩
    · cases refused.symm.trans applied
  · rintro ⟨value, means⟩
    exact ⟨_, applyLayer_of_means only means⟩

/-! ## A file with a single line -/

theorem trimmed_quote (value : List Char) : Text.Trimmed (FileLine.quote value) where
  first := by
    rintro character ⟨⟩
    decide
  last := by
    rw [FileLine.quote, ← List.cons_append, List.getLast?_concat]
    rintro character ⟨⟩
    decide

/-- The line that assigns a text in quotes to a setting. -/
def quotedLine (setting : Setting) (text : String) : List Char :=
  entryLine (setting.key .file, String.ofList (FileLine.quote text.toList))

theorem toList_quotedLine (setting : Setting) (text : String) :
    (setting.key .file).toList ++ (" = \"".toList ++ (text.toList ++ "\"".toList)) =
      quotedLine setting text := by
  simp only [quotedLine, entryLine, FileLine.quote, String.toList_ofList, List.append_assoc]
  rfl

theorem ofText_quotedLine (setting : Setting) (text : String) :
    ofText (quotedLine setting text) = .assignment (setting.key .file).toList text.toList := by
  have trimmed : Text.Trimmed (String.ofList (FileLine.quote text.toList)).toList := by
    rw [String.toList_ofList]
    exact trimmed_quote text.toList
  rw [quotedLine, FileLine.ofText_of_isKeyLine (isKeyLine_entryLine trimmed),
    String.toList_ofList, FileLine.unquoted_quote]

theorem notMem_quotedLine (oneLine : '\n' ∉ text.toList) : '\n' ∉ quotedLine setting text := by
  apply notMem_entryLine
  simp [FileLine.quote, oneLine]

/-- Behind the line with the text there is at most an empty one. -/
theorem fileLines_of_assignsQuoted (oneLine : '\n' ∉ text.toList)
    (assigns : AssignsQuoted content (setting.key .file) text) :
    ∃ rest, fileLines content = "[run]".toList :: quotedLine setting text :: rest ∧
      (rest = [] ∨ rest = [[]]) := by
  have whole : '\n' ∉ quotedLine setting text := notMem_quotedLine oneLine
  have shown := toList_quotedLine setting text
  rcases assigns with rfl | rfl
  · refine ⟨[], ?_, .inl rfl⟩
    have same : ("[run]\n" ++ setting.key .file ++ " = \"" ++ text ++ "\"").toList =
        "[run]".toList ++ '\n' :: quotedLine setting text := by
      simp only [String.toList_append, List.append_assoc, shown]
      rfl
    rw [fileLines, same, List.splitOn_append_cons_self_of_not_mem (by decide),
      List.splitOn_eq_singleton whole]
  · refine ⟨[[]], ?_, .inr rfl⟩
    have ending : "\"\n".toList = "\"".toList ++ ['\n'] := rfl
    have same : ("[run]\n" ++ setting.key .file ++ " = \"" ++ text ++ "\"\n").toList =
        "[run]".toList ++ '\n' :: (quotedLine setting text ++ '\n' :: []) := by
      simp only [String.toList_append, ending, ← shown, List.append_assoc]
      rfl
    rw [fileLines, same, List.splitOn_append_cons_self_of_not_mem (by decide),
      List.splitOn_append_cons_self_of_not_mem whole]
    rfl

/-- A text in quotes is found as it was put there. -/
theorem fileAssignments_of_assignsQuoted (oneLine : '\n' ∉ text.toList)
    (assigns : AssignsQuoted content (setting.key .file) text) :
    fileAssignments content = [(setting.key .file, text)] := by
  rcases fileLines_of_assignsQuoted oneLine assigns with ⟨rest, lines, few⟩
  have header : ofText "[run]".toList = .header "run".toList := rfl
  have silent : FileLine.assignments true (rest.map ofText) = [] := by
    rcases few with rfl | rfl <;> rfl
  change FileLine.assignments false ((fileLines content).map ofText) = _
  simp only [lines, List.map_cons, header, ofText_quotedLine, FileLine.assignments,
    beq_self_eq_true, if_true, String.ofList_toList, silent]

theorem suppliesOnly_of_assignsQuoted (oneLine : '\n' ∉ text.toList)
    (assigns : AssignsQuoted content (setting.key .file) text) :
    SuppliesOnly .file (lastAssigned? (fileAssignments content)) setting text := by
  rw [fileAssignments_of_assignsQuoted oneLine assigns]
  constructor
  · simp only [lastAssigned?, List.reverse_singleton, List.find?_singleton, beq_self_eq_true,
      if_true, Option.map_some]
  · intro other different
    have apart : (setting.key .file == other.key .file) = false := by
      rw [beq_eq_false_iff_ne, ne_eq, key_eq_iff]
      exact Ne.symm different
    simp only [lastAssigned?, List.reverse_singleton, List.find?_singleton, apart,
      Bool.false_eq_true, if_false, Option.map_none]

/-! ## The two layers -/

theorem readAlike_of_means_iff {environment : String → Option String}
    (assigned : SuppliesOnly .file (lastAssigned? (fileAssignments content)) setting text)
    (held : SuppliesOnly .environment environment setting text) (uncolored : setting ≠ .color)
    (same : ∀ value, Setting.Means .file setting text.toList value ↔
      Setting.Means .environment setting text.toList value) :
    ReadAlike start setting text (start.applyFile content)
      (start.applyEnvironment environment) := by
  by_cases valid : setting.Valid .file text
  · rcases valid with ⟨value, means⟩
    have also := (same value).mp means
    exact .inl ⟨Setting.put start setting value, applyLayer_of_means assigned means,
      applyLayer_of_means held also, given_put means, given_put also⟩
  · have also : ¬ setting.Valid .environment text := by
      rintro ⟨value, means⟩
      exact valid ⟨value, (same value).mpr means⟩
    exact .inr ⟨applyLayer_of_invalid assigned nofun valid,
      applyLayer_of_invalid held (fun _ color => absurd color uncolored) also, valid, also⟩

/-- A file with a text in quotes and an environment with the same text do the
same, if the text is for the tape length or the mode, or for a limit and has
no blanks around it.  With blanks around a limit the file refuses it, and the
environment takes it exactly if the rest is a number of a machine word. -/
theorem quoted_line_read_like_environment (start : Settings) (setting : Setting) (text : String)
    (oneLine : '\n' ∉ text.toList) (content : String)
    (assigns : AssignsQuoted content (setting.key .file) text)
    (environment : String → Option String)
    (held : SuppliesOnly .environment environment setting text) :
    (setting = .tapeLength ∨ setting = .mode →
      ReadAlike start setting text (start.applyFile content)
        (start.applyEnvironment environment)) ∧
    (setting = .stepLimit ∨ setting = .timeout → Text.Trimmed text.toList →
      ReadAlike start setting text (start.applyFile content)
        (start.applyEnvironment environment)) ∧
    (setting = .stepLimit ∨ setting = .timeout → ¬ Text.Trimmed text.toList →
      start.applyFile content = (.error ⟨setting.key .file, text⟩, start) ∧
      ((∃ reached, start.applyEnvironment environment = (.ok (), reached)) ↔
        ∃ numeral bound, Text.Padded numeral text.toList ∧ Text.Numeral numeral bound ∧
          bound < UInt64.size) ∧
      ((∃ reached, start.applyEnvironment environment = (.ok (), reached) ∧
          Given .environment start setting text reached) ∨
        start.applyEnvironment environment =
          (.error ⟨setting.key .environment, text⟩, start))) := by
  have assigned := suppliesOnly_of_assignsQuoted oneLine assigns
  have uncolored (kind : setting = .stepLimit ∨ setting = .timeout) : setting ≠ .color := by
    rcases kind with rfl | rfl <;> exact Setting.noConfusion
  refine ⟨fun kind => ?_, fun kind trimmed => ?_, fun kind loose => ?_⟩
  · refine readAlike_of_means_iff assigned held ?_
      fun value => Setting.means_file_iff_of_length_or_mode kind
    rcases kind with rfl | rfl <;> exact Setting.noConfusion
  · refine readAlike_of_means_iff assigned held (uncolored kind) fun value => ?_
    simp only [Setting.means_limit_iff kind, Layer.limits_file_iff_of_trimmed trimmed]
  · have invalid : ¬ setting.Valid .file text := by
      rintro ⟨value, means⟩
      rcases (Setting.means_limit_iff kind).mp means with ⟨bound, limits, -⟩
      exact Layer.not_limits_file loose limits
    have proper : Layer.environment = .environment → setting = .color → text ≠ "" :=
      fun _ color => absurd color (uncolored kind)
    refine ⟨applyLayer_of_invalid assigned nofun invalid, ?_, ?_⟩
    · refine (exists_applied_iff held proper start).trans ?_
      simp only [Setting.Valid, Setting.means_limit_iff kind]
      constructor
      · rintro ⟨value, bound, ⟨numeral, padded, denotes, small⟩, -⟩
        exact ⟨numeral, bound, padded, denotes, small⟩
      · rintro ⟨numeral, bound, padded, denotes, small⟩
        exact ⟨_, bound, ⟨numeral, padded, denotes, small⟩, rfl⟩
    · exact (given_or_refused held proper start).imp_right And.left

/-- Marks of the file format within the outer quotes belong to the text. -/
example : ({} : Settings).applyFile "[run]\nmode = \"\"a=#]\"\"" =
    (.error ⟨"mode", "\"a=#]\""⟩, {}) := by
  decide

/-- The file refuses a limit with a blank in front of it, and the environment
takes it. -/
theorem padded_limit_in_either_layer :
    ∃ environment : String → Option String,
      SuppliesOnly .environment environment .stepLimit " +7" ∧
      AssignsQuoted "[run]\nmax_steps = \" +7\"\n" "max_steps" " +7" ∧
      ¬ Text.Trimmed " +7".toList ∧
      ({} : Settings).applyFile "[run]\nmax_steps = \" +7\"\n" =
        (.error ⟨"max_steps", " +7"⟩, {}) ∧
      ∃ reached, ({} : Settings).applyEnvironment environment = (.ok (), reached) ∧
        reached.value .stepLimit = .limit (some 7) ∧
        reached.value .timeout = .limit none := by
  obtain ⟨environment, held⟩ : ∃ environment : String → Option String,
      SuppliesOnly .environment environment .stepLimit " +7" := by
    refine ⟨fun key => if key = "BFTAPE_MAX_STEPS" then some " +7" else none, rfl, ?_⟩
    intro other different
    cases other <;> first | rfl | exact absurd rfl different
  have assigns : AssignsQuoted "[run]\nmax_steps = \" +7\"\n" "max_steps" " +7" := .inr rfl
  have loose : ¬ Text.Trimmed " +7".toList := fun trimmed =>
    absurd (trimmed.first ' ' rfl) (by decide)
  have number : ∃ numeral bound, Text.Padded numeral " +7".toList ∧
      Text.Numeral numeral bound ∧ bound < UInt64.size := by
    have read : Text.unsigned? Text.wordBound (Text.trim " +7".toList) = some 7 := by decide
    rcases Text.unsigned?_trim_eq_some_iff.mp read with ⟨numeral, seven⟩
    exact ⟨numeral, 7, seven⟩
  have meaning : Setting.Means .environment .stepLimit " +7".toList (.limit (some 7)) :=
    Setting.means_stepLimit_iff.mpr ⟨7, by decide, rfl⟩
  rcases (quoted_line_read_like_environment {} .stepLimit " +7" (by decide) _ assigns environment
    held).2.2 (.inl rfl) loose with ⟨inFile, accepted, outcome⟩
  refine ⟨environment, held, assigns, loose, inFile, ?_⟩
  rcases accepted.mpr number with ⟨reached, applied⟩
  rcases outcome with ⟨given, same, taken⟩ | refused
  · exact ⟨given, same, taken.value.unique meaning, taken.others .timeout (by decide)⟩
  · cases refused.symm.trans applied

end Settings
end RingTape
