import RingTape.Proofs.FurtherOptions
import RingTape.Proofs.Precedence
import RingTape.Proofs.Remarks

namespace RingTape
namespace CommandLine

/-!
# The same command in other words

Whichever way a program and a tape length are given, the stages behind the
arguments come to the same: the text of the program, the length, and the
settings in force for everything else (`Job.settleWith`).  That holds for a
length among the arguments and for one that a layer below them supplies, as
long as no layer supplies a text for it that is no length.

From the same job comes the same answer.  Only the line of the log about the
settings file is about the surroundings themselves, and it comes before all
that is said of the job (`respond_alike`).
-/

variable {surroundings other : Surroundings} {arguments chosen : Arguments}
  {source : ProgramSource} {positional : Option Nat} {code : String} {length : Nat}

namespace Surroundings

/-- Layers that differ in sound lengths alone have the same fault. -/
theorem loadFault?_of_alike (alike : other.AlikeButForLength surroundings)
    (sound : ∀ layer, surroundings.SoundLength layer)
    (otherSound : ∀ layer, other.SoundLength layer) :
    Settings.loadFault? other.supply = Settings.loadFault? surroundings.supply := by
  have same (layer : Layer) (setting : Setting) :
      Settings.fault? layer (other.supply layer) setting =
        Settings.fault? layer (surroundings.supply layer) setting := by
    by_cases isLength : setting = .tapeLength
    · subst isLength
      rw [Settings.fault?_eq_none_iff.mpr (otherSound layer),
        Settings.fault?_eq_none_iff.mpr (sound layer)]
    · rw [Settings.fault?, Settings.fault?, alike.supply layer setting isLength]
  simp only [Settings.loadFault?, Settings.firstFault?, funext (same _)]

theorem GivesLength.sound (gives : other.GivesLength length) (layer : Layer) :
    other.SoundLength layer := by
  intro text supplied
  rw [Setting.accepts]
  cases gives with
  | environment variableText read sound =>
    cases layer with
    | file => exact sound text supplied
    | environment =>
      cases supplied.symm.trans variableText
      rw [read]
      rfl
  | file silent fileText read =>
    cases layer with
    | file =>
      cases supplied.symm.trans fileText
      rw [read]
      rfl
    | environment =>
      rw [silent] at supplied
      cases supplied

theorem GivesLength.topmost (gives : other.GivesLength length) :
    Settings.topmost? [
      (other.supply .environment .tapeLength).bind Setting.readLength?,
      (other.supply .file .tapeLength).bind Setting.readLength?] = some length := by
  cases gives with
  | environment variableText read _ => rw [variableText, Option.bind_some, read]; rfl
  | file silent fileText read => rw [silent, fileText, Option.bind_some, read]; rfl

end Surroundings

namespace Arguments

theorem inForce_select (given : chosen.tapeLength.or positional = some length)
    (arguments : Arguments) (supply : Layer → Settings.Supply) :
    (arguments.select chosen).inForce positional supply =
      { arguments.inForce none supply with tapeLength := length } := by
  have top (rest : List (Option Nat)) :
      Settings.topmost? (chosen.tapeLength :: positional :: rest) = some length := by
    rw [Settings.topmost?_cons, Settings.topmost?_cons, ← Option.or_assoc, given, Option.some_or]
  have inForce : ((arguments.select chosen).inForce positional supply).tapeLength = length := by
    change (Settings.topmost? (chosen.tapeLength :: positional :: _)).getD _ = _
    rw [top]
    rfl
  rw [← inForce]
  rfl

/-- A length that a layer gives comes to the same as one among the
arguments. -/
theorem inForce_of_givesLength (alike : other.AlikeButForLength surroundings)
    (gives : other.GivesLength length) (ungiven : chosen.tapeLength = none)
    (arguments : Arguments) :
    (arguments.select chosen).inForce none other.supply =
      { arguments.inForce none surroundings.supply with tapeLength := length } := by
  have inForce : ((arguments.select chosen).inForce none other.supply).tapeLength = length := by
    change (Settings.topmost? (chosen.tapeLength :: none :: _)).getD _ = _
    rw [Settings.topmost?_cons, Settings.topmost?_cons, ungiven, Option.none_or, Option.none_or,
      gives.topmost]
    rfl
  have same (layer : Layer) (setting : Setting) (elsewhere : setting ≠ .tapeLength) :=
    alike.supply layer setting elsewhere
  rw [← inForce]
  unfold Arguments.inForce
  simp only [same _ .mode (by decide), same _ .stepLimit (by decide),
    same _ .timeout (by decide), same _ .color (by decide)]
  rfl

end Arguments

namespace Job

/-- What the stages behind the arguments come to for this text, this length
and these further options. -/
def settleWith (surroundings : Surroundings) (code : String) (length : Nat)
    (arguments : Arguments) : Except Refusal Job :=
  match Settings.loadFault? surroundings.supply with
  | some error => .error (.settings error)
  | none => build surroundings (.inline code) arguments.traced
      { arguments.inForce none surroundings.supply with tapeLength := length }

theorem sourceText_file {path : String} (isFile : surroundings.file? path = some (Text.encode code))
    (named : isProgramPath path = true) : sourceText surroundings (.file path) = .ok code := by
  rw [sourceText, Surroundings.readProgram, isFile]
  dsimp only
  rw [if_pos named, Text.decode?_encode]
  rfl

/-- Where the text comes from makes no difference. -/
theorem build_of_text (found : sourceText surroundings source = .ok code) (traced : Bool)
    (settings : Settings) :
    build surroundings source traced settings =
      build surroundings (.inline code) traced settings := by
  rw [build, found]
  rfl

/-- Code that is given depends on nothing but the terminals and the memory. -/
theorem build_inline_congr (terminal : other.terminal = surroundings.terminal)
    (inputTerminal : other.inputTerminal = surroundings.inputTerminal)
    (memory : other.memory = surroundings.memory) (traced : Bool) (settings : Settings) :
    build other (.inline code) traced settings =
      build surroundings (.inline code) traced settings := by
  rw [build, build, terminal, Surroundings.prompt, inputTerminal, Surroundings.memoryError?,
    memory]
  rfl

theorem settle_select (picked : chosen.choice? = some (source, positional))
    (given : chosen.tapeLength.or positional = some length)
    (found : sourceText surroundings source = .ok code) (arguments : Arguments) :
    settle surroundings (arguments.select chosen) =
      settleWith surroundings code length arguments := by
  have selected : (arguments.select chosen).choice? = some (source, positional) := picked
  rw [settle_of_choice selected, settleWith, Arguments.inForce_select given,
    build_of_text found]
  rfl

theorem settle_of_givesLength (alike : other.AlikeButForLength surroundings)
    (sound : ∀ layer, surroundings.SoundLength layer) (gives : other.GivesLength length)
    (picked : chosen.choice? = some (source, none)) (ungiven : chosen.tapeLength = none)
    (found : sourceText other source = .ok code) (arguments : Arguments) :
    settle other (arguments.select chosen) = settleWith surroundings code length arguments := by
  have selected : (arguments.select chosen).choice? = some (source, none) := picked
  rw [settle_of_choice selected, settleWith,
    Surroundings.loadFault?_of_alike alike sound gives.sound,
    Arguments.inForce_of_givesLength alike gives ungiven, build_of_text found,
    build_inline_congr alike.terminal alike.inputTerminal alike.memory]
  rfl

/-- What all stages come to, given what was read around the choice. -/
def ofAround (surroundings : Surroundings) (code : String) (length : Nat) :
    Option Arguments → Except Refusal Job
  | none => .error .badArguments
  | some arguments =>
    if arguments.help then .error .help else settleWith surroundings code length arguments

theorem ofList_of_read? {list : List String} {around : Option Arguments}
    (read : Arguments.read? list = around.map fun arguments => arguments.select chosen)
    (settles : ∀ arguments, settle other (arguments.select chosen) =
      settleWith surroundings code length arguments) :
    ofList other list = ofAround surroundings code length around := by
  rw [ofList, read]
  cases around with
  | none => rfl
  | some arguments =>
    dsimp only [Option.map_some, prepare, ofAround]
    rw [settles]
    rfl

end Job

/-! ## Answers to the same job -/

theorem respond_of_ofList {list words : List String}
    (jobs : Job.ofList surroundings list = Job.ofList surroundings words)
    (circumstances : Circumstances) :
    respond surroundings circumstances list = respond surroundings circumstances words := by
  rw [respond, respond, jobs]

theorem Surroundings.complaint_congr (program : other.program = surroundings.program)
    (message : String) : other.complaint message = surroundings.complaint message := by
  rw [complaint, complaint, program]

/-- Refusals are reported in the name of the program. -/
theorem Refusal.report_congr (program : other.program = surroundings.program)
    (breakdown : other.breakdown = surroundings.breakdown) (refusal : Refusal) :
    refusal.report other = refusal.report surroundings := by
  have complaint := Surroundings.complaint_congr program
  cases refusal with
  | badArguments => rfl
  | help => exact congrArg usage program
  | noProgram => exact congrArg usage program
  | settings error => exact complaint error.message
  | file error => exact complaint error.message
  | memory error =>
    cases error with
    | overlong => exact congrFun breakdown _
    | exhausted length => rfl
  | emptyTape => exact complaint Tape.emptyMessage
  | brackets source error color =>
    exact congrArg (fun name => Report.brackets (some name) source error _) program

theorem Job.text_opening (log : Log) (job : Job) (surroundings : Surroundings) :
    log.text (job.opening surroundings) =
      log.text surroundings.loading ++
        log.text [
          .event (.parsed job.program.size job.lines),
          .event (.starting job.tape.length job.options.mode job.options.traced)] := by
  rw [opening, Log.text_append]

theorem AlikeButForLoading.of_remarks {first second : Surroundings}
    (same : first.log = second.log) (code : Nat) (output : List UInt8) (later report : String) :
    AlikeButForLoading first second
      (some ⟨code, output, first.log.text first.loading ++ later, report⟩)
      (some ⟨code, output, first.log.text second.loading ++ later, report⟩) := by
  have said : AlikeButForLoading first second _ _ := .said (some ⟨code, output, later, report⟩)
  rw [← same] at said
  exact said

/-- Where the words about the settings file agree, so do the answers. -/
theorem AlikeButForLoading.eq {first second : Surroundings} {left right : Option Answer}
    (alike : AlikeButForLoading first second left right)
    (same : first.log.text first.loading = second.log.text second.loading) : left = right := by
  cases alike with
  | unsaid => rfl
  | said => rw [same]

theorem Job.answerOf_alike (alike : other.AlikeButForLength surroundings) (job : Job)
    (watch : Watch) :
    AlikeButForLoading other surroundings (job.answerOf other watch)
      (job.answerOf surroundings watch) := by
  rw [answerOf, answerOf]
  cases watch.verdict? with
  | none => exact .unsaid none
  | some verdict =>
    have worded : job.wording other verdict = job.wording surroundings verdict := by
      rw [wording, wording, alike.program]
    simp only [Option.map_some, ← alike.log, text_opening, worded, String.append_assoc]
    exact .of_remarks alike.log ..

/-- The same job is answered alike. -/
theorem respond_alike {list words : List String} (alike : other.AlikeButForLength surroundings)
    (jobs : Job.ofList other list = Job.ofList surroundings words)
    (circumstances : Circumstances) :
    AlikeButForLoading other surroundings (respond other circumstances list)
      (respond surroundings circumstances words) := by
  rw [respond, respond, jobs]
  cases Job.ofList surroundings words with
  | error refusal =>
    have report := refusal.report_congr alike.program alike.breakdown
    dsimp only
    have said := AlikeButForLoading.of_remarks alike.log refusal.code [] ""
      (refusal.report surroundings)
    rw [String.append_empty, String.append_empty] at said
    rw [Refusal.answer, Refusal.answer, report, ← alike.log]
    cases refusal with
    | badArguments | help | noProgram => exact .unsaid _
    | settings | file | memory | emptyTape | brackets => exact said
  | ok job =>
    dsimp only
    rw [← alike.handlerFailure]
    cases other.handlerFailure with
    | some reason =>
      have report := Surroundings.complaint_congr alike.program
      dsimp only
      simp only [Job.unhandled, report, ← alike.log, Job.text_opening]
      exact .of_remarks alike.log ..
    | none =>
      have pursued : job.pursuit other circumstances = job.pursuit surroundings circumstances := by
        rw [Job.pursuit, Job.pursuit, alike.log]
      dsimp only
      rw [Job.answer, Job.answer, pursued, alike.log]
      exact Job.answerOf_alike alike job _

section Spellings

variable {path word : String} {first second third : List String}

theorem ne_empty_of_isProgramPath (named : isProgramPath path = true) : path ≠ "" := by
  rintro rfl
  exact absurd named (by decide +kernel)

end Spellings
end CommandLine
end RingTape
