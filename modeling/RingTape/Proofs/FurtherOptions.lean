import RingTape.CommandLine.Spelling

namespace RingTape
namespace CommandLine
namespace Arguments

/-!
# Reading past further options

Further options leave alone what the arguments say about the program and the
length of its tape.  More than that, they do not even look at it: reading
them and then setting these parts is the same as setting the parts first
(`readFrom_further`).  So the words that name a program and a length can be
told apart from all words around them, wherever those stand.
-/

/-- Arguments with the program and the tape length of others. -/
def select (arguments chosen : Arguments) : Arguments :=
  { arguments with
    path := chosen.path
    length := chosen.length
    code := chosen.code
    tapeLength := chosen.tapeLength }

variable {option : ValueOption} {waiting : Bool}

theorem raiseFlag_select (flag : Flag) (arguments chosen : Arguments) :
    (arguments.select chosen).raiseFlag flag =
      (arguments.raiseFlag flag).map fun next => next.select chosen := by
  cases flag with
  | traced => cases raised : arguments.traced <;> simp [raiseFlag, select, raised]
  | help => cases raised : arguments.help <;> simp [raiseFlag, select, raised]

theorem setOption_select (further : option.IsFurther) (text : String)
    (arguments chosen : Arguments) :
    (arguments.select chosen).setOption option text =
      (arguments.setOption option text).map fun next => next.select chosen := by
  cases option with
  | code => exact further.elim
  | tapeLength => exact further.elim
  | mode => cases given : arguments.mode <;> simp [setOption, select, given, Function.comp_def]
  | stepLimit =>
    cases given : arguments.stepLimit <;> simp [setOption, select, given, Function.comp_def]
  | timeout =>
    cases given : arguments.timeout <;> simp [setOption, select, given, Function.comp_def]

/-- A way of reading that does not look at the program and the tape length,
and after which a further option waits for its value or none does. -/
structure Neutral (read : Arguments → Option (Arguments × Option ValueOption)) (waiting : Bool) :
    Prop where
  frame : ∀ arguments chosen, read (select arguments chosen) =
    (read arguments).map fun next => (next.1.select chosen, next.2)
  leaves : ∀ arguments next, read arguments = some next →
    next.2.isSome = waiting ∧ ∀ option, next.2 = some option → option.IsFurther

theorem neutral_none : Neutral (fun arguments => some (arguments, none)) false where
  frame _ _ := rfl
  leaves := by
    rintro arguments next ⟨⟩
    exact ⟨rfl, nofun⟩

theorem neutral_waiting (further : option.IsFurther) :
    Neutral (fun arguments => some (arguments, some option)) true where
  frame _ _ := rfl
  leaves := by
    rintro arguments next ⟨⟩
    exact ⟨rfl, fun other same => Option.some.inj same ▸ further⟩

theorem neutral_bind {step : Arguments → Option Arguments}
    {read : Arguments → Option (Arguments × Option ValueOption)}
    (frame : ∀ arguments chosen,
      step (select arguments chosen) = (step arguments).map fun next => next.select chosen)
    (neutral : Neutral read waiting) :
    Neutral (fun arguments => (step arguments).bind read) waiting where
  frame arguments chosen := by
    rw [frame]
    cases step arguments with
    | none => rfl
    | some next => exact neutral.frame next chosen
  leaves arguments next read := by
    rcases Option.bind_eq_some_iff.mp read with ⟨middle, -, read⟩
    exact neutral.leaves middle next read

theorem neutral_map {step : Arguments → Option Arguments}
    (frame : ∀ arguments chosen,
      step (select arguments chosen) = (step arguments).map fun next => next.select chosen) :
    Neutral (fun arguments => (step arguments).map fun next => (next, none)) false := by
  simp only [Option.map_eq_bind]
  exact neutral_bind frame neutral_none

theorem neutral_setOption (further : option.IsFurther) (text : String) :
    Neutral (fun arguments =>
      (arguments.setOption option text).map fun next => (next, none)) false :=
  @neutral_map (fun arguments => arguments.setOption option text)
    (setOption_select further text)

theorem neutral_raiseFlag (flag : Flag) :
    Neutral (fun arguments => (arguments.raiseFlag flag).map fun next => (next, none)) false :=
  @neutral_map (fun arguments => arguments.raiseFlag flag) (raiseFlag_select flag)

theorem neutral_readLetters {letters : List Char} (further : FurtherLetters letters waiting) :
    Neutral (fun arguments => arguments.readLetters letters) waiting := by
  induction further with
  | none => exact neutral_none
  | @flag letter rest waiting flag found _ ih =>
    simp only [readLetters, found]
    exact neutral_bind (raiseFlag_select flag) ih
  | @option letter rest option found further =>
    simp only [readLetters, found]
    cases rest with
    | nil => exact neutral_waiting further
    | cons first rest => exact neutral_setOption further _

/-- No name of a switch holds an equals sign. -/
theorem notMem_of_long? {name : List Char} {switch : Switch}
    (found : Switch.long? name = some switch) : '=' ∉ name := by
  have absent {text : String} (spelled : String.ofList name = text) (free : '=' ∉ text.toList) :
      '=' ∉ name := by
    rw [← spelled, String.toList_ofList] at free
    exact free
  unfold Switch.long? at found
  split at found
  case h_8 => cases found
  all_goals next spelled => exact absent spelled (by decide)

theorem neutral_readArgument {text : String} (further : FurtherWord text waiting) :
    Neutral (fun arguments => arguments.readArgument text) waiting := by
  cases further with
  | @letters letter rest _ written single further =>
    have read (arguments : Arguments) :
        arguments.readArgument text = arguments.readLetters (letter :: rest) := by
      rw [readArgument, written]
      split
      · next same =>
        cases same
        exact absurd rfl single
      · next same =>
        cases same
        rfl
      · next other => exact absurd rfl (other _ _)
    simp only [read]
    exact neutral_readLetters further
  | flag written found =>
    simp only [readArgument, written, readName,
      Text.cutOnce?_eq_none_iff.mpr (notMem_of_long? found), found]
    exact neutral_raiseFlag _
  | option written found further =>
    simp only [readArgument, written, readName,
      Text.cutOnce?_eq_none_iff.mpr (notMem_of_long? found), found]
    exact neutral_waiting further
  | assigned written found further =>
    simp only [readArgument, written, readName,
      Text.cutOnce?_of_notMem (notMem_of_long? found), found]
    exact neutral_setOption further _

theorem ne_doubleDash {text : String} (further : FurtherWord text waiting) : text ≠ "--" := by
  rintro rfl
  cases further with
  | letters written single _ =>
    cases written
    exact single rfl
  | flag written found =>
    cases written
    cases found
  | option written found _ =>
    cases written
    cases found
  | assigned written found _ =>
    exact List.append_ne_nil_of_right_ne_nil _ (List.cons_ne_nil _ _)
      (congrArg (List.drop 2) written).symm

theorem readFrom_cons_of_further {text : String} (further : FurtherWord text waiting)
    (arguments : Arguments) (rest : List String) :
    readFrom arguments none (text :: rest) =
      (arguments.readArgument text).bind fun next => readFrom next.1 next.2 rest := by
  rw [readFrom]
  exact if_neg (ne_doubleDash further)

/-- Further options can be read first, whatever is chosen before them. -/
theorem readFrom_further {words : List String} (further : FurtherOptions words)
    (arguments chosen : Arguments) (rest : List String) :
    readFrom (arguments.select chosen) none (words ++ rest) =
      (readFrom arguments none words).bind fun next => readFrom (next.select chosen) none rest := by
  -- Each word changes the arguments, but never the choice made before it.
  induction further generalizing arguments with
  | none => rfl
  | @alone text words further _ ih =>
    have neutral := neutral_readArgument further
    rw [List.cons_append, readFrom_cons_of_further further, readFrom_cons_of_further further,
      neutral.frame]
    cases read : arguments.readArgument text with
    | none => rfl
    | some next =>
      rcases next with ⟨next, waits⟩
      cases waits with
      | none => exact ih next
      | some option => exact absurd (neutral.leaves arguments _ read).1 Bool.noConfusion
  | @valued text words value further _ ih =>
    have neutral := neutral_readArgument further
    rw [List.cons_append, readFrom_cons_of_further further, readFrom_cons_of_further further,
      neutral.frame]
    cases read : arguments.readArgument text with
    | none => rfl
    | some next =>
      rcases next with ⟨next, waits⟩
      cases waits with
      | none => exact absurd (neutral.leaves arguments _ read).1 Bool.noConfusion
      | some option =>
        have away := (neutral.leaves arguments _ read).2 option rfl
        simp only [Option.map_some, Option.bind_some, List.cons_append, readFrom,
          setOption_select away]
        cases next.setOption option value with
        | none => rfl
        | some set => exact ih set

/-! ## Words that choose -/

/-- Behind the choice `before` these words make it the choice `after`, and
leave everything else alone. -/
def Selects (before : Arguments) (words : List String) (after : Arguments) : Prop :=
  ∀ (arguments : Arguments) (rest : List String),
    readFrom (arguments.select before) none (words ++ rest) =
      readFrom (arguments.select after) none rest

variable {before middle last : Arguments} {path word : String} {length : Nat}

theorem selects_nil (chosen : Arguments) : Selects chosen [] chosen := fun _ _ => rfl

theorem readFrom_positional {text : String} (noOption : text.toList.head? ≠ some '-')
    (arguments : Arguments) (rest : List String) :
    readFrom arguments none (text :: rest) =
      (arguments.addPositional text).bind fun next => readFrom next none rest := by
  have single : text ≠ "--" := by
    rintro rfl
    exact noOption rfl
  have read : arguments.readArgument text =
      (arguments.addPositional text).map fun next => (next, none) := by
    rw [readArgument]
    split
    · next written => exact absurd (congrArg List.head? written) noOption
    · next written => exact absurd (congrArg List.head? written) noOption
    · rfl
  rw [readFrom]
  refine (if_neg single).trans ?_
  rw [read, Option.bind_map]
  rfl

theorem selects_path (noOption : path.toList.head? ≠ some '-') (named : path ≠ "")
    (free : before.path = none) : Selects before [path] { before with path := some path } := by
  intro arguments rest
  have taken : (arguments.select before).addPositional path =
      some (arguments.select { before with path := some path }) := by
    simp only [addPositional, select, free, if_neg named]
  rw [List.singleton_append, readFrom_positional noOption, taken]
  rfl

/-- A numeral does not look like an option. -/
theorem head?_of_number? (denotes : number? word = some length) :
    word.toList.head? ≠ some '-' := by
  intro dashed
  rcases List.head?_eq_some_iff.mp dashed with ⟨digits, written⟩
  rw [number?, written, Text.unsigned?, Text.withoutPlus] at denotes
  · rcases Option.ite_none_right_eq_some.mp denotes with ⟨⟨-, numeric, -⟩, -⟩
    exact absurd (List.all_eq_true.mp numeric '-' List.mem_cons_self) (by decide)
  · intro rest same
    cases same

theorem ne_empty_of_number? (denotes : number? word = some length) : word ≠ "" := by
  rintro rfl
  cases denotes

theorem selects_length (denotes : number? word = some length) (pathed : before.path = some path)
    (free : before.length = none) :
    Selects before [word] { before with length := some length } := by
  intro arguments rest
  have taken : (arguments.select before).addPositional word =
      some (arguments.select { before with length := some length }) := by
    simp only [addPositional, select, pathed, free, denotes, Option.map_some]
  rw [List.singleton_append, readFrom_positional (head?_of_number? denotes), taken]
  rfl

theorem readFrom_option {text : String} {name : List Char} {option : ValueOption}
    (written : text.toList = '-' :: '-' :: name)
    (found : Switch.long? name = some (.value option)) (arguments : Arguments) (value : String)
    (rest : List String) :
    readFrom arguments none (text :: value :: rest) =
      (arguments.setOption option value).bind fun next => readFrom next none rest := by
  have single : text ≠ "--" := by
    rintro rfl
    cases written
    cases found
  have read : arguments.readArgument text = some (arguments, some option) := by
    simp only [readArgument, written, readName,
      Text.cutOnce?_eq_none_iff.mpr (notMem_of_long? found), found]
  rw [readFrom]
  refine (if_neg single).trans ?_
  rw [read]
  rfl

theorem selects_lengthOption (denotes : number? word = some length)
    (free : before.tapeLength = none) :
    Selects before ["--tape-len", word] { before with tapeLength := some length } := by
  intro arguments rest
  have taken : (arguments.select before).setOption .tapeLength word =
      some (arguments.select { before with tapeLength := some length }) := by
    simp [setOption, select, free, denotes]
  refine (readFrom_option rfl rfl _ _ _).trans ?_
  rw [taken]
  rfl

theorem selects_code (code : String) (free : before.code = none) :
    Selects before ["--code", code] { before with code := some code } := by
  intro arguments rest
  have taken : (arguments.select before).setOption .code code =
      some (arguments.select { before with code := some code }) := by
    simp [setOption, select, free]
  refine (readFrom_option rfl rfl _ _ _).trans ?_
  rw [taken]
  rfl

/-- What the further options around a choice say. -/
def readAround (first second third : List String) : Option Arguments :=
  (readFrom {} none first).bind fun arguments =>
    (readFrom arguments none second).bind fun arguments => readFrom arguments none third

/-- A choice that is made in two places is read apart from everything around
it. -/
theorem read?_of_selects {first second third words more : List String}
    (furtherFirst : FurtherOptions first) (furtherSecond : FurtherOptions second)
    (furtherThird : FurtherOptions third)
    (here : Selects {} words middle) (there : Selects middle more last) :
    read? (first ++ (words ++ (second ++ (more ++ third)))) =
      (readAround first second third).map fun arguments => arguments.select last := by
  have ended (arguments : Arguments) :
      readFrom (arguments.select last) none third =
        (readFrom arguments none third).map fun next => next.select last := by
    have apart := readFrom_further furtherThird arguments last []
    rw [List.append_nil] at apart
    rw [apart, Option.map_eq_bind]
    rfl
  have begun := readFrom_further furtherFirst {} {} (words ++ (second ++ (more ++ third)))
  refine Eq.trans begun ?_
  rw [readAround, Option.map_bind]
  congr 1
  funext arguments
  rw [here, readFrom_further furtherSecond, Function.comp_apply, Option.map_bind]
  congr 1
  funext arguments
  rw [there, ended]
  rfl

end Arguments
end CommandLine
end RingTape
