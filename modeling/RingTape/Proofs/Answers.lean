import RingTape.CommandLine.Answer
import RingTape.Proofs.Remarks
import RingTape.Proofs.Stopping

namespace RingTape

/-!
# The answer of a run that is left alone

If there is neither an interrupt nor a deadline, a command only has to wait.
It answers as soon as the run has ended within the number of instructions
that it is followed for, unless the run comes to wait for input on its way
(`Progress.iterateUntil_eq_ended_iff`), and it answers nothing else.  Before
its report it says what the command and the run had to say by then.
-/

/-! ## Following a run that may have to wait -/

namespace Progress

variable {options : Options} {program : Program} {holds : Run → Bool}

@[simp]
theorem iterateUntil_zero (progress : Progress) :
    iterateUntil options program holds 0 progress = progress := by
  cases progress <;> rfl

theorem iterateUntil_succ_of_free {count : Nat} {run : Run} (free : holds run = false) :
    iterateUntil options program holds (count + 1) (running run) =
      iterateUntil options program holds count (run.advance options program) := by
  rw [iterateUntil, free]
  rfl

theorem iterateUntil_of_held (count : Nat) {run : Run} (held : holds run = true) :
    iterateUntil options program holds count (running run) = running run := by
  cases count with
  | zero => rfl
  | succ count => rw [iterateUntil, if_pos held]

/-- A run that is followed unless it is held up ends as it would anyway, and
only if nothing held it up. -/
theorem iterateUntil_eq_ended_iff {count : Nat} {progress : Progress} {how : Ending}
    {final : Run} :
    iterateUntil options program holds count progress = ended how final ↔
      iterate options program count progress = ended how final ∧
        ∀ moment run, iterate options program moment progress = running run →
          holds run = false := by
  -- What is over stays so, and then nothing is there to be held up.
  have settled {progress : Progress} (finished : progress = ended how final) :
      ∀ moment run, iterate options program moment progress = running run →
        holds run = false := by
    intro moment run reached
    rw [finished, iterate_ended] at reached
    cases reached
  induction count generalizing progress with
  | zero => cases progress <;> exact (and_iff_left_of_imp settled).symm
  | succ count ih =>
    cases progress with
    | running run =>
      cases held : holds run with
      | true =>
        rw [iterateUntil_of_held _ held]
        refine ⟨nofun, fun both => ?_⟩
        exact absurd (both.2 0 run rfl) (by rw [held]; exact Bool.noConfusion)
      | false =>
        rw [iterateUntil_succ_of_free held]
        refine (@ih (run.advance options program)).trans (and_congr_right fun _ =>
          ⟨fun free moment => ?_, fun free moment => free (moment + 1)⟩)
        cases moment with
        | zero =>
          rintro later ⟨⟩
          exact held
        | succ moment => exact free moment
    | ended other run => exact (and_iff_left_of_imp settled).symm
    | stuck why run => exact (and_iff_left_of_imp settled).symm

/-- Held up or not, the run is one that the program comes to, and it has said
what there was to say on the way. -/
theorem exists_iterate_of_iterateUntil (count : Nat) (progress : Progress) :
    ∃ moment,
      iterateUntil options program holds count progress =
        iterate options program moment progress ∧
      remarksUntil options program holds count progress =
        remarks options program moment progress := by
  induction count generalizing progress with
  | zero => exact ⟨0, by cases progress <;> exact ⟨rfl, rfl⟩⟩
  | succ count ih =>
    cases progress with
    | running run =>
      cases held : holds run with
      | true =>
        refine ⟨0, iterateUntil_of_held _ held, ?_⟩
        rw [remarksUntil, if_pos held]
        rfl
      | false =>
        rcases ih (run.advance options program) with ⟨moment, same, said⟩
        refine ⟨moment + 1, (iterateUntil_succ_of_free held).trans same, ?_⟩
        rw [remarksUntil, if_neg (Bool.eq_false_iff.mp held), said, remarks_running]
    | ended how run => exact ⟨0, rfl, rfl⟩
    | stuck why run => exact ⟨0, rfl, rfl⟩

end Progress

/-! ## Answers without interrupt and deadline -/

namespace CommandLine

theorem unstoppable_console (circumstances : Circumstances) :
    (Job.console circumstances).Unstoppable := ⟨rfl, rfl⟩

namespace Job

variable {job : Job} {surroundings : Surroundings} {circumstances : Circumstances}

/-- The run is followed for as long as the circumstances ask for, and only
waiting for input holds it up. -/
theorem pursuit_of_uninterrupted (untimed : job.timeout = none)
    (uninterrupted : circumstances.interruptAfter = none) :
    job.pursuit surroundings circumstances =
      let waits := Run.waits job.options job.program circumstances.inputOpen
      let begun := Run.begin job.options job.tape (console circumstances)
      { progress := begun.iterateUntil job.options job.program waits circumstances.patience
        said := surroundings.log.text
          (begun.remarksUntil job.options job.program waits circumstances.patience) } := by
  have unprovoked (run : Run) : provoked circumstances run = false := by
    rw [provoked, uninterrupted]
  have granted : job.grant circumstances = circumstances.patience := by
    rw [grant, untimed]
  simp [pursuit, Watch.pursue, unprovoked, granted, uninterrupted, Progress.saidUntil_eq]

/-- A command that is left alone answers once its run has ended, if the run
comes to its end without waiting for input, and not before. -/
theorem answer_eq_some_iff {source : String} (parsed : Program.parse source = .ok job.program)
    (untimed : job.timeout = none) (uninterrupted : circumstances.interruptAfter = none)
    {answer : Answer} :
    job.answer surroundings circumstances = some answer ↔
      ∃ how run,
        job.program.execute job.options job.tape (console circumstances)
          circumstances.patience = .ended how run ∧
        (∀ moment earlier,
          job.program.execute job.options job.tape (console circumstances) moment =
              .running earlier →
            earlier.waits job.options job.program circumstances.inputOpen = false) ∧
        answer = {
          code := (Verdict.result how).code
          output := run.console.output.accepted.toList
          remarks := surroundings.log.text (job.opening surroundings ++
            job.program.remarks job.options job.tape (console circumstances)
              circumstances.patience ++
            (Verdict.result how).remarks)
          report := job.wording surroundings (.result how) } := by
  rw [Job.answer, pursuit_of_uninterrupted untimed uninterrupted]
  dsimp only
  cases reached : Progress.iterateUntil job.options job.program
    (Run.waits job.options job.program circumstances.inputOpen) circumstances.patience
    (Run.begin job.options job.tape (console circumstances)) with
  | ended how run =>
    rcases Progress.iterateUntil_eq_ended_iff.mp reached with ⟨ends, free⟩
    have said := @Progress.remarksUntil_of_free _ _ _ _ circumstances.patience free
    simp only [said, Log.text_append]
    constructor
    · rintro ⟨⟩
      exact ⟨how, run, ends, free, rfl⟩
    · rintro ⟨how', run', ends', -, rfl⟩
      cases ends.symm.trans ends'
      rfl
  | running run =>
    have unprovoked : provoked circumstances run = false := by
      rw [provoked, uninterrupted]
    simp only [sequel, unprovoked, untimed]
    refine ⟨nofun, ?_⟩
    rintro ⟨how, final, ends, free, -⟩
    cases reached.symm.trans (Progress.iterateUntil_eq_ended_iff.mpr ⟨ends, free⟩)
  | stuck why run =>
    rcases Progress.exists_iterate_of_iterateUntil _ _ with ⟨moment, same, -⟩
    exact absurd (same.symm.trans reached)
      (Program.execute_ne_stuck (Program.balanced_of_parse parsed) moment why run)

end Job
end CommandLine
end RingTape
