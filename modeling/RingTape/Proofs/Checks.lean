import RingTape.Proofs.Answers
import RingTape.Proofs.Precedence

namespace RingTape

/-!
# Checks before a run

The stages between a command line and its job are taken one after another,
while each `CommandLine.Check` is told for itself.  The two agree: the first
check that objects is the one whose words are reported, whatever the later
ones would have said, and if none objects there is a job that is made of
nothing but the text, the tape and the settings in force
(`Job.settle_answers`).

The report of a failed check or of a run is not all that a command says.
Lines of a log that was asked for stand before it, and so do the prompts for
someone at a terminal (`respond_beyond_reports`).
-/

namespace CommandLine

variable {surroundings : Surroundings} {arguments : Arguments} {source : ProgramSource}
  {positional : Option Nat}

/-- The objection that a refusal voices. -/
def Refusal.objection (refusal : Refusal) (surroundings : Surroundings) : Objection :=
  ⟨refusal.code, refusal.remarks surroundings, refusal.report surroundings⟩

namespace Check

/-- What the checks on the way to a job have against a command line. -/
def jobObjection? (surroundings : Surroundings) (arguments : Arguments) : Option Objection :=
  let objection? := objection? surroundings arguments
  (objection? choice).or ((objection? settings).or ((objection? file).or
    ((objection? tape).or (objection? brackets))))

/-- A check is heard only if those before it have no objection. -/
theorem firstObjection?_eq (surroundings : Surroundings) (arguments : Arguments) :
    firstObjection? surroundings arguments =
      (jobObjection? surroundings arguments).or (objection? surroundings arguments handler) := by
  have joined (check : Check) (rest : List Check) :
      (check :: rest).findSome? (objection? surroundings arguments) =
        (objection? surroundings arguments check).or
          (rest.findSome? (objection? surroundings arguments)) := by
    rw [List.findSome?_cons]
    cases objection? surroundings arguments check <;> rfl
  simp only [firstObjection?, all, joined, List.findSome?_nil, Option.or_none, jobObjection?,
    Option.or_assoc]

end Check

namespace Arguments

/-- Where no text can be had, the file is reported. -/
theorem fileError?_of_error {error : FileError}
    (chosen : arguments.choice? = some (source, positional))
    (failed : Job.sourceText surroundings source = .error (.file error)) :
    arguments.fileError? surroundings = some error := by
  rw [fileError?, chosen]
  cases source with
  | inline code => cases failed
  | file path =>
    rw [Job.sourceText] at failed
    dsimp only
    cases read : surroundings.readProgram path with
    | ok text =>
      rw [read] at failed
      cases failed
    | error reason =>
      rw [read] at failed
      cases failed
      rfl

theorem fileError?_of_ok {text : String}
    (chosen : arguments.choice? = some (source, positional))
    (found : Job.sourceText surroundings source = .ok text) :
    arguments.fileError? surroundings = none := by
  rw [fileError?, chosen]
  cases source with
  | inline code => rfl
  | file path =>
    rw [Job.sourceText] at found
    dsimp only
    cases read : surroundings.readProgram path with
    | ok text => rfl
    | error error =>
      rw [read] at found
      cases found

/-- The job of a program with this text. -/
def job (surroundings : Surroundings) (arguments : Arguments) (text : String)
    (program : Program) (tape : Tape) : Job where
  program := program
  lines := text.toList.count '\n' + 1
  tape := tape
  options := arguments.options surroundings
  timeout := (arguments.effective surroundings).timeout
  color := (arguments.effective surroundings).color && surroundings.terminal

/-- A job is opened with what the arguments let expect. -/
theorem opening_job {text : String} {program : Program} {tape : Tape}
    (found : arguments.text? surroundings = some text)
    (parsed : Program.parse text = .ok program)
    (made : Tape.blank? (arguments.effective surroundings).tapeLength = some tape) :
    (arguments.job surroundings text program tape).opening surroundings =
      arguments.opening surroundings := by
  have length : (arguments.job surroundings text program tape).tape.length =
      (arguments.effective surroundings).tapeLength := Tape.length_of_blank? made
  rw [Job.opening, length, opening, found, Option.map_some, parsed]
  rfl

end Arguments

namespace Job

/-- What comes of the checks comes of the stages: the refusal that voices
the first objection, or the job. -/
def Answers (surroundings : Surroundings) (arguments : Arguments) (settled : Except Refusal Job) :
    Option Objection → Prop
  | some objection => ∃ refusal, settled = .error refusal ∧
      refusal.objection surroundings = objection
  | none => ∃ text program tape,
      arguments.text? surroundings = some text ∧ Program.parse text = .ok program ∧
      Tape.blank? (arguments.effective surroundings).tapeLength = some tape ∧
      settled = .ok (arguments.job surroundings text program tape)

/-- The stages behind the program file, once there is a text. -/
theorem build_answers {text : String} (found : sourceText surroundings source = .ok text)
    (read : arguments.text? surroundings = some text) :
    Answers surroundings arguments
      (build surroundings source arguments.traced (arguments.effective surroundings))
      ((Check.tape.objection? surroundings arguments).or
        (Check.brackets.objection? surroundings arguments)) := by
  rw [build, found, Check.objection?]
  dsimp only
  cases surroundings.memoryError? (arguments.effective surroundings).tapeLength with
  | some error => exact ⟨.memory error, rfl, rfl⟩
  | none =>
    dsimp only
    by_cases empty : (arguments.effective surroundings).tapeLength = 0
    · rw [if_pos empty, Option.some_or, empty, Tape.blank?_zero]
      exact ⟨.emptyTape, rfl, rfl⟩
    · rcases Tape.exists_blank? empty with ⟨tape, made⟩
      rw [if_neg empty, Option.none_or, made, Check.objection?, read, Option.bind_some]
      dsimp only
      cases parsed : Program.parse text with
      | error error => exact ⟨.brackets text error _, rfl, rfl⟩
      | ok program => exact ⟨text, program, tape, read, parsed, made, rfl⟩

/-- The stages agree with the checks. -/
theorem settle_answers (surroundings : Surroundings) (arguments : Arguments) :
    Answers surroundings arguments (settle surroundings arguments)
      (Check.jobObjection? surroundings arguments) := by
  rw [Check.jobObjection?]
  -- The stages in their order: a check that is passed drops out of the list.
  cases chosen : arguments.choice? with
  | none =>
    have objects : Check.choice.objection? surroundings arguments =
        some ⟨2, [], usage surroundings.program⟩ := by
      rw [Check.objection?, chosen]
      rfl
    rw [objects, Option.some_or, settle, chosen]
    exact ⟨.noProgram, rfl, rfl⟩
  | some choice =>
    rcases choice with ⟨source, positional⟩
    have agrees : Check.choice.objection? surroundings arguments = none := by
      rw [Check.objection?, chosen]
      rfl
    rw [agrees, Option.none_or, settle_of_choice chosen, Check.objection?]
    cases Settings.loadFault? surroundings.supply with
    | some error => exact ⟨.settings error, rfl, rfl⟩
    | none =>
      have effective : arguments.inForce positional surroundings.supply =
          arguments.effective surroundings := by
        rw [Arguments.effective, chosen]
        rfl
      rw [Option.map_none, Option.none_or, effective, Check.objection?]
      cases found : sourceText surroundings source with
      | error refusal =>
        rcases sourceText_error found with ⟨error, rfl⟩
        rw [Arguments.fileError?_of_error chosen found, build, found]
        exact ⟨.file error, rfl, rfl⟩
      | ok text =>
        have read : arguments.text? surroundings = some text := by
          rw [Arguments.text?, chosen, Option.bind_some, found]
          rfl
        rw [Arguments.fileError?_of_ok chosen found, Option.map_none, Option.none_or]
        exact build_answers found read

end Job

/-! ## Answers -/

theorem ofList_of_read {list : List String} (read : Arguments.read? list = some arguments)
    (unhelped : arguments.help = false) :
    Job.ofList surroundings list = Job.settle surroundings arguments := by
  rw [Job.ofList, read]
  exact Job.prepare_of_unhelped unhelped

/-- A run is reported like the verdict on it, unless it was interrupted. -/
theorem reported_iff {how : Ending} (uninterrupted : how ≠ .interrupted) (program : String)
    (timeout : Option Nat) (palette : Palette) (code : Nat) (report : String) :
    Reported program palette how code report ↔
      code = (Verdict.result how).code ∧
        report = (Verdict.result how).report program timeout palette := by
  cases how with
  | completed =>
    constructor
    · rintro ⟨⟩
      exact ⟨rfl, rfl⟩
    · rintro ⟨rfl, rfl⟩
      exact .completed
  | interrupted => exact absurd rfl uninterrupted
  | failed error =>
    have words : (Verdict.result (.failed error)).report program timeout palette =
        errorAddress program error ++ (errorStyle palette error).paint error.message ++ "\n" := by
      cases error with
      | invalidInput position mode => rw [errorAddress, String.empty_append]; rfl
      | stepLimit limit =>
        rw [errorAddress, errorStyle, Style.paint, Style.opening, Style.closing,
          String.empty_append, String.empty_append, String.append_empty]
        rfl
      | device position failure => rfl
    rw [words]
    constructor
    · rintro ⟨⟩
      exact ⟨rfl, rfl⟩
    · rintro ⟨rfl, rfl⟩
      exact .failed error

/-- Before a run nothing is said outside the log. -/
theorem Job.text_off_opening (job : Job) (surroundings : Surroundings) :
    Log.off.text (job.opening surroundings) = "" := by
  have loading : Log.off.text surroundings.loading = "" := by
    rw [Surroundings.loading]
    split
    · exact Log.text_nil _
    · exact Log.text_off_event [.loading]
  rw [opening, Log.text_append, loading, String.empty_append]
  exact Log.text_off_event [_, _]

/-- Nor is anything else than the report after it. -/
theorem Verdict.text_off_remarks (verdict : Verdict) : Log.off.text verdict.remarks = "" := by
  unfold Verdict.remarks
  split
  · exact Log.text_off_event [_]
  · exact Log.text_nil _

/-- The answer to a run that is left alone, in terms of its report. -/
theorem Job.answer_eq_some_iff_reported {job : Job} {text : String}
    {circumstances : Circumstances} {answer : Answer}
    (parsed : Program.parse text = .ok job.program) (untimed : job.timeout = none)
    (uninterrupted : circumstances.interruptAfter = none) :
    job.answer surroundings circumstances = some answer ↔
      ∃ how run budget,
        budget ≤ circumstances.patience ∧
        job.program.execute job.options job.tape (console circumstances) budget =
          .ended how run ∧
        (circumstances.inputOpen = true → ∀ moment earlier,
          job.program.execute job.options job.tape (console circumstances) moment =
              .running earlier →
            earlier.waits job.options job.program true = false) ∧
        answer.output = run.console.output.accepted.toList ∧
        Reported surroundings.program (Palette.forColor job.color) how answer.code
          answer.report ∧
        answer.remarks = surroundings.log.text (job.opening surroundings ++
          job.program.remarks job.options job.tape (console circumstances) budget ++
          (Verdict.result how).remarks) ∧
        (surroundings.log = .off → answer.remarks =
          String.join (List.replicate run.console.prompts (job.options.prompt.getD ""))) := by
  have completes {budget : Nat} {how : Ending} {run : Run}
      (ends : job.program.execute job.options job.tape (console circumstances) budget =
        .ended how run) : how ≠ .interrupted := by
    rintro rfl
    exact Program.execute_ne_interrupted (unstoppable_console circumstances) budget run ends
  rw [answer_eq_some_iff parsed untimed uninterrupted]
  constructor
  · rintro ⟨how, run, ends, free, rfl⟩
    refine ⟨how, run, _, Nat.le_refl _, ends, fun held moment earlier reached => ?_, rfl,
      (reported_iff (completes ends) _ _ _ _ _).mpr ⟨rfl, rfl⟩, rfl, fun silent => ?_⟩
    · rw [← held]
      exact free moment earlier reached
    · have shown := @Program.text_off_remarks job.program job.options job.tape
        (console circumstances) rfl circumstances.patience
      rw [ends] at shown
      rw [silent, Log.text_append, Log.text_append, text_off_opening, shown,
        Verdict.text_off_remarks, String.empty_append, String.append_empty]
      rfl
  · rintro ⟨how, run, budget, within, ends, free, output, reported, remarks, -⟩
    rcases answer with ⟨code, written, said, report⟩
    rcases (reported_iff (completes ends) _ job.timeout _ _ _).mp reported with ⟨coded, worded⟩
    refine ⟨how, run, Program.execute_of_le within ends, fun moment earlier reached => ?_, ?_⟩
    · cases held : circumstances.inputOpen with
      | true => exact free held moment earlier reached
      | false => rfl
    · rw [Program.remarks_of_ended ends within]
      simp only [Answer.mk.injEq]
      exact ⟨coded, output, remarks, worded⟩

end CommandLine
end RingTape
