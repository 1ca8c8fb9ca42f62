import RingTape.Proofs.Acceptance
import RingTape.Proofs.Layers
import RingTape.Settings.Values

namespace RingTape

/-!
# What a layer reports and what it leaves behind

The readers of settings accept what the grammar of their values allows and
nothing else.  Each of them is matched with its rule of `Setting.Means` once;
together they tell what reading the text of one setting can come to
(`Setting.assign?_eq_none_iff`, `Setting.means_of_assign?`).

A layer is then followed along the order of its settings.  Reading a setting
changes this one alone, so what holds of the settings that were read holds
until the end, and what is still to be read is what it was at the start
(`Settings.takes_foldl`).
-/

namespace Text

variable {text : List Char} {value : Nat}

theorem unsigned?_wordBound_eq_some_iff :
    unsigned? wordBound text = some value ↔ Numeral text value ∧ value < UInt64.size := by
  simp only [unsigned?_eq_some_iff, natural?_eq_some_iff, List.all_eq_true]
  constructor
  · rintro ⟨sign, digits, whole, plus, ⟨some, all, denoted⟩, small⟩
    exact ⟨⟨sign, digits, whole, plus, some, all, denoted.symm⟩, small⟩
  · rintro ⟨⟨sign, digits, whole, plus, some, all, denoted⟩, small⟩
    exact ⟨sign, digits, whole, plus, ⟨some, all, denoted.symm⟩, small⟩

theorem Numeral.trimmed (numeral : Numeral text value) : Trimmed text := by
  rcases numeral with ⟨sign, digits, rfl, plus, -, all, -⟩
  exact trimmed_signed plus (List.all_eq_true.mpr all)

/-- Reading a trimmed text is reading a numeral with blanks around it. -/
theorem unsigned?_trim_eq_some_iff :
    unsigned? wordBound (trim text) = some value ↔
      ∃ numeral, Padded numeral text ∧ Numeral numeral value ∧ value < UInt64.size := by
  rw [unsigned?_wordBound_eq_some_iff]
  constructor
  · rintro ⟨numeral, small⟩
    exact ⟨trim text, padded_trim text, numeral, small⟩
  · rintro ⟨core, padded, numeral, small⟩
    rw [trim_eq_iff.mpr ⟨numeral.trimmed, padded⟩]
    exact ⟨numeral, small⟩

end Text

namespace Mode

variable {mode : Mode} {text : String}

theorem named?_eq_some_iff : named? text = some mode ↔ text ∈ mode.names := by
  constructor
  · intro found
    unfold named? at found
    split at found <;> cases found <;> decide
  · intro member
    cases mode <;> simp only [names, List.mem_cons, List.not_mem_nil, or_false] at member <;>
      rcases member with rfl | rfl <;> rfl

/-- No name of a mode has a blank in it. -/
theorem notMem_blank_of_mem_names (named : text ∈ mode.names) {blank : Char}
    (isBlank : Text.isBlank blank = true) : blank ∉ text.toList := by
  have solid : text.toList.any Text.isBlank = false := by
    cases mode <;> simp only [names, List.mem_cons, List.not_mem_nil, or_false] at named <;>
      rcases named with rfl | rfl <;> rfl
  exact fun member => List.any_eq_false.mp solid blank member isBlank

theorem read?_eq_some_iff :
    read? text = some mode ↔
      ∃ name word, Text.Padded name text.toList ∧ word ∈ mode.names ∧
        Text.lowerAscii name = word.toList := by
  rw [read?, named?_eq_some_iff, normalName]
  constructor
  · intro named
    exact ⟨_, _, Text.padded_trim text.toList, named, String.toList_ofList.symm⟩
  · rintro ⟨name, word, padded, named, same⟩
    have solid (character : Char) (member : character ∈ name) :
        Text.isBlank character = false := by
      rw [← Bool.not_eq_true]
      intro blank
      refine notMem_blank_of_mem_names named blank ?_
      rw [← same, ← Text.toLower_of_isBlank blank]
      exact List.mem_map_of_mem member
    rw [Text.trim_eq_iff.mpr ⟨Text.trimmed_of_solid solid, padded⟩, same, String.ofList_toList]
    exact named

end Mode

namespace Setting

variable {layer : Layer} {setting other : Setting} {settings changed : Settings} {text : String}
  {value : Value}

/-! ## Readers and the grammar -/

theorem means_tapeLength_iff :
    Means layer tapeLength text.toList value ↔
      ∃ length, readLength? text = some length ∧ value = .length length := by
  simp only [readLength?, Option.filter_eq_some_iff, Text.unsigned?_trim_eq_some_iff,
    decide_eq_true_eq]
  constructor
  · intro means
    cases means with
    | tapeLength padded denotes positive small =>
      exact ⟨_, ⟨⟨_, padded, denotes, small⟩, positive⟩, rfl⟩
  · rintro ⟨length, ⟨⟨numeral, padded, denotes, small⟩, positive⟩, rfl⟩
    exact .tapeLength padded denotes positive small

theorem means_mode_iff :
    Means layer mode text.toList value ↔
      ∃ chosen, Mode.read? text = some chosen ∧ value = .mode chosen := by
  simp only [Mode.read?_eq_some_iff]
  constructor
  · intro means
    cases means with
    | mode padded named same => exact ⟨_, ⟨_, _, padded, named, same⟩, rfl⟩
  · rintro ⟨chosen, ⟨name, word, padded, named, same⟩, rfl⟩
    exact .mode padded named same

theorem readLimit?_eq_some_iff {bound : Nat} :
    readLimit? layer text = some bound ↔ layer.Limits text.toList bound := by
  cases layer with
  | file => exact Text.unsigned?_wordBound_eq_some_iff
  | environment => exact Text.unsigned?_trim_eq_some_iff

theorem means_stepLimit_iff :
    Means layer stepLimit text.toList value ↔
      ∃ bound, readLimit? layer text = some bound ∧ value = .limit (some bound) := by
  simp only [readLimit?_eq_some_iff]
  constructor
  · intro means
    cases means with
    | stepLimit limits => exact ⟨_, limits, rfl⟩
  · rintro ⟨bound, limits, rfl⟩
    exact .stepLimit limits

theorem means_timeout_iff :
    Means layer timeout text.toList value ↔
      ∃ bound, readLimit? layer text = some bound ∧ value = .limit (some bound) := by
  simp only [readLimit?_eq_some_iff]
  constructor
  · intro means
    cases means with
    | timeout limits => exact ⟨_, limits, rfl⟩
  · rintro ⟨bound, limits, rfl⟩
    exact .timeout limits

/-- The two limits are read alike. -/
theorem means_limit_iff {layer : Layer} (limit : setting = .stepLimit ∨ setting = .timeout) :
    Means layer setting text.toList value ↔
      ∃ bound, layer.Limits text.toList bound ∧ value = .limit (some bound) := by
  simp only [← readLimit?_eq_some_iff]
  rcases limit with rfl | rfl
  · exact means_stepLimit_iff
  · exact means_timeout_iff

theorem means_color_iff (present : Bool) (proper : layer = .environment → text ≠ "") :
    Means layer color text.toList value ↔
      ∃ wanted, readColor? layer text present = some wanted ∧ value = .color wanted := by
  cases layer with
  | file =>
    rw [readColor?]
    constructor
    · intro means
      cases means with
      | colored same =>
        rw [if_pos (String.toList_inj.mp same)]
        exact ⟨_, rfl, rfl⟩
      | plain same =>
        rw [String.toList_inj.mp same]
        exact ⟨_, rfl, rfl⟩
    · rintro ⟨wanted, read, rfl⟩
      split at read
      · next same =>
        cases read
        exact .colored (congrArg String.toList same)
      · split at read
        · next same =>
          cases read
          exact .plain (congrArg String.toList same)
        · cases read
  | environment =>
    have some : text ≠ "" := proper rfl
    rw [readColor?, if_neg some]
    constructor
    · intro means
      cases means with
      | noColor => exact ⟨_, rfl, rfl⟩
    · rintro ⟨wanted, read, rfl⟩
      cases read
      exact .noColor fun empty => some (String.toList_inj.mp empty)

/-! ## Reading one setting -/

/-- Settings with another value for one setting. -/
def put (settings : Settings) : Setting → Value → Settings
  | tapeLength, .length cells => { settings with tapeLength := cells }
  | .mode, .mode chosen => { settings with mode := chosen }
  | stepLimit, .limit bound => { settings with stepLimit := bound }
  | timeout, .limit bound => { settings with timeout := bound }
  | color, .color wanted => { settings with color := wanted }
  | _, _ => settings

theorem value_put (means : Means layer setting text.toList value) :
    (put settings setting value).value setting = value := by
  cases means <;> rfl

theorem value_put_of_ne (different : other ≠ setting) :
    (put settings setting value).value other = settings.value other := by
  cases setting <;> cases value <;> first | rfl | (cases other <;> first | rfl | contradiction)

/-- What is read is put into the settings. -/
theorem map_put_eq_some_iff {Kind : Type} {read : Option Kind} {wrap : Kind → Value}
    (reads : ∀ value, Means layer setting text.toList value ↔
      ∃ kind, read = some kind ∧ value = wrap kind) :
    (read.map fun kind => put settings setting (wrap kind)) = some changed ↔
      ∃ value, Means layer setting text.toList value ∧ put settings setting value = changed := by
  rw [Option.map_eq_some_iff]
  constructor
  · rintro ⟨kind, found, rfl⟩
    exact ⟨wrap kind, (reads _).mpr ⟨kind, found, rfl⟩, rfl⟩
  · rintro ⟨value, means, rfl⟩
    rcases (reads value).mp means with ⟨kind, found, rfl⟩
    exact ⟨kind, found, rfl⟩

/-- Reading a text gives its setting the value that the text means. -/
theorem assign?_eq_some_iff
    (proper : layer = .environment → setting = .color → text ≠ "") :
    setting.assign? layer settings text = some changed ↔
      ∃ value, Means layer setting text.toList value ∧ put settings setting value = changed := by
  cases setting with
  | tapeLength =>
    change ((readLength? text).map fun length => put settings tapeLength (.length length)) = _ ↔ _
    exact map_put_eq_some_iff fun _ => means_tapeLength_iff
  | mode =>
    change ((Mode.read? text).map fun chosen => put settings mode (.mode chosen)) = _ ↔ _
    exact map_put_eq_some_iff fun _ => means_mode_iff
  | stepLimit =>
    change ((readLimit? layer text).map fun bound =>
      put settings stepLimit (.limit (some bound))) = _ ↔ _
    exact map_put_eq_some_iff fun _ => means_stepLimit_iff
  | timeout =>
    change ((readLimit? layer text).map fun bound =>
      put settings timeout (.limit (some bound))) = _ ↔ _
    exact map_put_eq_some_iff fun _ => means_timeout_iff
  | color =>
    change ((readColor? layer text settings.color).map fun wanted =>
      put settings color (.color wanted)) = _ ↔ _
    exact map_put_eq_some_iff fun _ =>
      means_color_iff settings.color fun environment => proper environment rfl

theorem Means.proper (means : Means layer setting text.toList value) :
    layer = .environment → setting = .color → text ≠ "" := by
  rintro rfl rfl rfl
  cases means with
  | noColor some => exact some rfl

/-- A text has one meaning at most. -/
theorem Means.unique {first second : Value} (one : Means layer setting text.toList first)
    (another : Means layer setting text.toList second) : first = second := by
  have read := (@assign?_eq_some_iff _ _ {} _ _ one.proper).mpr ⟨first, one, rfl⟩
  have again := (@assign?_eq_some_iff _ _ {} _ _ one.proper).mpr ⟨second, another, rfl⟩
  have same : put {} setting first = put {} setting second :=
    Option.some.inj (read.symm.trans again)
  calc first
      = (put {} setting first).value setting := (value_put one).symm
    _ = (put {} setting second).value setting := by rw [same]
    _ = second := value_put another

theorem valid_iff_accepts (proper : layer = .environment → setting = .color → text ≠ "") :
    setting.Valid layer text ↔ setting.accepts layer text = true := by
  rw [← isSome_assign? layer {} text, Option.isSome_iff_exists]
  simp only [assign?_eq_some_iff proper]
  constructor
  · rintro ⟨value, means⟩
    exact ⟨_, value, means, rfl⟩
  · rintro ⟨changed, value, means, -⟩
    exact ⟨value, means⟩

end Setting

namespace Settings

/-- What a layer supplies under its names.  An empty variable says nothing
about colors. -/
def Supplies (layer : Layer) (supplied : String → Option String) (setting : Setting)
    (text : String) : Prop :=
  supplied (setting.key layer) = some text ∧
    (layer = .environment → setting = .color → text ≠ "")

section Reading

variable {layer : Layer} {supplied : String → Option String} {setting other : Setting}
  {order : List Setting} (start : Settings)

/-- A text under the name of a setting is supplied for it, or it is the empty
text that says nothing about colors. -/
theorem supplies_or {text : String} (present : supplied (setting.key layer) = some text) :
    Supplies layer supplied setting text ∨
      layer = .environment ∧ setting = .color ∧ text = "" := by
  by_cases silent : layer = .environment ∧ setting = .color ∧ text = ""
  · exact .inr silent
  · exact .inl ⟨present, fun environment color empty => silent ⟨environment, color, empty⟩⟩

theorem fault?_eq_none_iff_sound :
    fault? layer (named layer supplied) setting = none ↔
      Sound layer (Supplies layer supplied) setting := by
  rw [fault?_eq_none_iff]
  constructor
  · intro accepted text given
    exact (Setting.valid_iff_accepts given.2).mpr (accepted text given.1)
  · intro sound text present
    rcases supplies_or present with given | ⟨rfl, rfl, rfl⟩
    · exact (Setting.valid_iff_accepts given.2).mp (sound text given)
    · rfl

theorem value_amend_of_ne (different : other ≠ setting) :
    (amend layer (named layer supplied) start setting).value other = start.value other := by
  cases present : supplied (setting.key layer) with
  | none =>
    rw [amend, named, present]
    rfl
  | some text =>
    rw [amend, named, present, Option.bind_some]
    rcases supplies_or present with given | ⟨rfl, rfl, rfl⟩
    · cases read : setting.assign? layer start text with
      | none => rfl
      | some changed =>
        rcases (Setting.assign?_eq_some_iff given.2).mp read with ⟨value, -, rfl⟩
        exact Setting.value_put_of_ne different
    · rfl

theorem takes_amend (sound : Sound layer (Supplies layer supplied) setting) :
    Takes layer (Supplies layer supplied) start
      (amend layer (named layer supplied) start setting) setting := by
  cases present : supplied (setting.key layer) with
  | none =>
    rw [amend, named, present]
    refine ⟨fun text given => ?_, fun _ => rfl⟩
    rw [given.1] at present
    cases present
  | some text =>
    rw [amend, named, present, Option.bind_some]
    rcases supplies_or present with given | ⟨rfl, rfl, rfl⟩
    · rcases sound text given with ⟨value, means⟩
      rw [(Setting.assign?_eq_some_iff given.2).mpr ⟨value, means, rfl⟩]
      refine ⟨fun again also => ?_, fun absent => absurd given (absent text)⟩
      have same : text = again := Option.some.inj (present.symm.trans also.1)
      rw [← same, Option.getD_some, Setting.value_put means]
      exact means
    · refine ⟨fun again also => ?_, fun _ => rfl⟩
      have empty : "" = again := Option.some.inj (present.symm.trans also.1)
      exact absurd empty.symm (also.2 rfl rfl)

/-- Settings that are read in turn are taken over, and the others stay. -/
theorem takes_foldl (single : order.Nodup)
    (sound : ∀ setting ∈ order, Sound layer (Supplies layer supplied) setting) :
    (∀ setting ∈ order, Takes layer (Supplies layer supplied) start
        (order.foldl (amend layer (named layer supplied)) start) setting) ∧
      ∀ setting ∉ order,
        (order.foldl (amend layer (named layer supplied)) start).value setting =
          start.value setting := by
  induction order generalizing start with
  | nil => exact ⟨fun _ member => absurd member List.not_mem_nil, fun _ _ => rfl⟩
  | cons first rest ih =>
    rcases List.nodup_cons.mp single with ⟨once, others⟩
    rcases ih (amend layer (named layer supplied) start first) others
      fun setting member => sound setting (List.mem_cons_of_mem _ member) with ⟨taken, kept⟩
    -- Each setting is read once, so what follows the first one leaves it alone.
    have firstTaken := takes_amend start (sound first List.mem_cons_self)
    have firstKept := kept first once
    rw [List.foldl_cons]
    constructor
    · intro setting member
      rcases List.mem_cons.mp member with rfl | later
      · exact ⟨fun text given => firstKept ▸ firstTaken.supplied text given,
          fun absent => firstKept.trans (firstTaken.absent absent)⟩
      · have different : setting ≠ first := fun same => once (same ▸ later)
        exact ⟨(taken setting later).supplied, fun absent =>
          ((taken setting later).absent absent).trans (value_amend_of_ne start different)⟩
    · intro setting outside
      rw [List.mem_cons, not_or] at outside
      exact (kept setting outside.2).trans (value_amend_of_ne start outside.1)

/-- A layer that is given by a look-up is applied exactly. -/
theorem appliedExactly_applyLayer (layer : Layer) (supplied : String → Option String)
    (start : Settings) :
    AppliedExactly layer (Supplies layer supplied) start (start.applyLayer layer supplied) where
  fails before setting after text whole sound given invalid := by
    have all : Setting.all = before ++ setting :: after := whole.symm
    have single : (before ++ setting :: after).Nodup := by
      rw [whole]
      decide
    have refused : setting.accepts layer text = false := by
      rw [← Bool.not_eq_true, ← Setting.valid_iff_accepts given.2]
      exact invalid
    have faulty : fault? layer (named layer supplied) setting = some ⟨setting.key layer, text⟩ :=
      fault?_eq_some_iff.mpr ⟨text, given.1, refused, rfl⟩
    have stops := @assignAll_of_fault layer supplied setting before after _ start
      (fun earlier member => fault?_eq_none_iff_sound.mpr (sound earlier member)) faulty
    rcases takes_foldl start (List.nodup_append.mp single).1 sound with ⟨taken, kept⟩
    rw [applyLayer, all, stops]
    refine ⟨rfl, taken, fun other later => kept other fun earlier => ?_⟩
    exact (List.nodup_append.mp single).2.2 other earlier other later rfl
  succeeds sound := by
    have reads := assignAll_of_sound start fun setting (_ : setting ∈ Setting.all) =>
      fault?_eq_none_iff_sound.mpr (sound setting)
    have taken := (takes_foldl start (by decide : Setting.all.Nodup)
      fun setting _ => sound setting).1
    rw [applyLayer, reads]
    exact ⟨rfl, fun setting => taken setting (by cases setting <;> decide)⟩

end Reading

/-- Applying a layer is exact about what it reports and about what it has
changed, for every settings file and for every environment, whatever the
settings were before. -/
theorem layers_applied_exactly (start : Settings) :
    (∀ content, AppliedExactly .file
        (fun setting text =>
          LastValue (fileLines content) (setting.key .file).toList text.toList)
        start (start.applyFile content)) ∧
      ∀ environment, AppliedExactly .environment
        (fun setting text => environment (setting.key .environment) = some text ∧
          (setting = .color → text ≠ ""))
        start (start.applyEnvironment environment) := by
  constructor
  · intro content
    have same : (fun setting text =>
        LastValue (fileLines content) (Setting.key .file setting).toList text.toList) =
        Supplies .file (lastAssigned? (fileAssignments content)) := by
      funext setting text
      refine propext ((lookup?_eq_some_iff (fileLines content)).symm.trans ?_)
      exact ⟨fun found => ⟨found, nofun⟩, And.left⟩
    rw [same]
    exact appliedExactly_applyLayer .file _ start
  · intro environment
    have same : (fun setting text => environment (Setting.key .environment setting) = some text ∧
        (setting = .color → text ≠ "")) = Supplies .environment environment := by
      funext setting text
      exact propext ⟨fun given => ⟨given.1, fun _ => given.2⟩,
        fun given => ⟨given.1, given.2 rfl⟩⟩
    rw [same]
    exact appliedExactly_applyLayer .environment environment start

/-- A value in quotes is taken with the blanks in it, and those do not belong
to a limit. -/
example : ({} : Settings).applyFile "[run]\ncolor = red\nmax_steps = \" 5\"\ntape_len = +12" =
    (.error ⟨"max_steps", " 5"⟩, { tapeLength := 12 }) := by
  decide

/-- The length is taken over with blanks around it, the limit is refused, and
colors are not switched off any more. -/
theorem environment_refused_at_limit :
    ∃ environment : String → Option String, environment "BFTAPE_TAPE_LEN" = some " +7 " ∧
      environment "BFTAPE_MAX_STEPS" = some "5x" ∧ environment "NO_COLOR" = some "1" ∧
      ∃ reached, ({} : Settings).applyEnvironment environment =
          (.error ⟨"BFTAPE_MAX_STEPS", "5x"⟩, reached) ∧
        reached.value .tapeLength = .length 7 ∧ reached.value .mode = .mode .character ∧
        reached.value .color = .color true := by
  obtain ⟨environment, length, mode, limit, color⟩ : ∃ environment : String → Option String,
      environment "BFTAPE_TAPE_LEN" = some " +7 " ∧ environment "BFTAPE_MODE" = none ∧
        environment "BFTAPE_MAX_STEPS" = some "5x" ∧ environment "NO_COLOR" = some "1" :=
    ⟨fun key =>
      if key = "BFTAPE_TAPE_LEN" then some " +7 " else if key = "BFTAPE_MAX_STEPS" then some "5x"
      else if key = "NO_COLOR" then some "1" else none, rfl, rfl, rfl, rfl⟩
  have seven : Setting.Means .environment .tapeLength " +7 ".toList (.length 7) :=
    Setting.means_tapeLength_iff.mpr ⟨7, by decide, rfl⟩
  have sound : ∀ setting ∈ [Setting.tapeLength, .mode], Sound .environment (fun setting text =>
      environment (setting.key .environment) = some text ∧ (setting = .color → text ≠ ""))
      setting := by
    intro setting member text given
    rcases List.mem_cons.mp member with rfl | last
    · have same : " +7 " = text := Option.some.inj (length.symm.trans given.1)
      rw [← same]
      exact ⟨_, seven⟩
    · rw [List.mem_singleton.mp last] at given
      cases mode.symm.trans given.1
  have invalid : ¬ Setting.stepLimit.Valid .environment "5x" := by
    rw [@Setting.valid_iff_accepts _ .stepLimit _ nofun]
    decide
  rcases ((layers_applied_exactly {}).2 environment).fails [.tapeLength, .mode] .stepLimit
    [.timeout, .color] "5x" rfl sound ⟨limit, nofun⟩ invalid with ⟨error, taken, kept⟩
  refine ⟨environment, length, limit, color, _, Prod.ext error rfl, ?_, ?_,
    kept .color (by decide)⟩
  · exact ((taken .tapeLength (by decide)).supplied _ ⟨length, nofun⟩).unique seven
  · refine (taken .mode (by decide)).absent fun text given => ?_
    cases mode.symm.trans given.1

end Settings
end RingTape
