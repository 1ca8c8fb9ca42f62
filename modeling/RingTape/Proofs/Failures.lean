import RingTape.Proofs.OpenLoops
import RingTape.Proofs.Writing

namespace RingTape

/-!
# Failing runs

A run can fail in front of an instruction, in the middle of one, and after
the last.  `Run.Fails` lists every such way with the error that is reported
and the machine that is left behind.  A failing instruction of a real run
has changed nothing.  The row of a traced run is written after its
instruction took effect, so there the instruction has been carried out
although the run does not count it.

A run that fails anywhere but in its conclusion has written no part of the
completion notice, since the notice is no part of its transcript.
-/

/-- How the next step of a run fails: the error that it reports, and the
machine that it leaves. -/
inductive Run.Fails (run : Run) (options : Options) (program : Program) :
    RunError → Machine → Prop
  | limit (instruction : Instruction) (limit : Nat)
    (here : program[run.machine.position]? = some instruction)
    (reached : run.exhaustedLimit options = some limit) :
    Fails run options program (.stepLimit limit) run.machine
  /-- The stop flag is up, and the flush before the interruption fails. -/
  | interruption (instruction : Instruction)
    (here : program[run.machine.position]? = some instruction)
    (raised : run.console.stopped = true) :
    Fails run options program (.device run.machine.position .flushFailed) run.machine
  | output (here : program[run.machine.position]? = some (.command .output))
    (untraced : options.traced = false) :
    Fails run options program (.device run.machine.position .sinkFull) run.machine
  | input (failure : DeviceFailure)
    (here : program[run.machine.position]? = some (.command .input))
    (untraced : options.traced = false)
    (reason : failure = .flushFailed ∨ failure = .inputFailed) :
    Fails run options program (.device run.machine.position failure) run.machine
  /-- There is no cell in the record. -/
  | refusal (here : program[run.machine.position]? = some (.command .input))
    (untraced : options.traced = false) :
    Fails run options program (.invalidInput run.machine.position options.mode) run.machine
  | row (instruction : Instruction) (machine : Machine)
    (here : program[run.machine.position]? = some instruction)
    (traced : options.traced = true)
    (stepped : run.machine.step program instruction 0 = .ok machine) :
    Fails run options program (.device run.machine.position .sinkFull) machine
  /-- The completion notice, or the flush behind it. -/
  | conclusion (failure : DeviceFailure) (past : run.machine.position = program.size)
    (reason : failure = .sinkFull ∨ failure = .flushFailed) :
    Fails run options program (.device program.size failure) run.machine

namespace Console

variable {console : Console}

theorem failure_of_flush {failure : DeviceFailure}
    (refused : console.flush.1 = .error failure) : failure = .flushFailed := by
  change (if console.output.flush.1 then Except.ok ()
    else Except.error DeviceFailure.flushFailed) = _ at refused
  split at refused
  · cases refused
  · exact (Except.error.inj refused).symm

theorem failure_of_conclude {failure : DeviceFailure}
    (refused : console.conclude.1 = .error failure) :
    failure = .sinkFull ∨ failure = .flushFailed := by
  rcases answer : console.write completionNotice with ⟨reason | _, after⟩
  · simp only [conclude, answer] at refused
    cases refused
    exact .inl (failure_of_write (congrArg Prod.fst answer))
  · simp only [conclude, answer] at refused
    exact .inr (failure_of_flush refused)

theorem failure_of_receive {mode : Mode} {failure : CommandFailure}
    (refused : (console.receive mode).1 = .error failure) :
    failure = .invalidInput ∨ failure = .device .inputFailed := by
  rcases taken : console.input.takeRecord with ⟨content | ⟨lost, reason⟩, rest⟩
  · cases decoded : mode.decode? content with
    | none =>
      simp only [receive, taken, decoded] at refused
      exact .inl (Except.error.inj refused).symm
    | some cell =>
      simp only [receive, taken, decoded] at refused
      cases refused
  · cases reason <;> simp only [receive, taken] at refused
    · exact .inl (Except.error.inj refused).symm
    · exact .inr (Except.error.inj refused).symm

theorem failure_of_read {mode : Mode} {prompt : Option String} {failure : CommandFailure}
    (refused : (console.read mode prompt).1 = .error failure) :
    failure = .invalidInput ∨
      failure = .device .flushFailed ∨ failure = .device .inputFailed := by
  rcases flushed : console.flush with ⟨reason | _, after⟩
  · simp only [read, flushed] at refused
    cases refused
    exact .inr (.inl (congrArg _ (failure_of_flush (congrArg Prod.fst flushed))))
  · simp only [read, flushed] at refused
    rcases failure_of_receive refused with invalid | failed
    · exact .inl invalid
    · exact .inr (.inr failed)

/-- Only output and input can fail. -/
theorem failure_of_supply {mode : Mode} {prompt : Option String} {instruction : Instruction}
    {cell : UInt8} {failure : CommandFailure}
    (refused : (console.supply mode prompt instruction cell).1 = .error failure) :
    instruction = .command .output ∧ failure = .device .sinkFull ∨
      instruction = .command .input ∧
        (failure = .invalidInput ∨
          failure = .device .flushFailed ∨ failure = .device .inputFailed) := by
  cases instruction with
  | loopStart => cases refused
  | loopEnd => cases refused
  | command action =>
    cases action with
    | output =>
      left
      rcases answer : console.write (console.emission mode cell) with ⟨reason | _, after⟩
      · rw [supply_output_of_error answer] at refused
        cases refused
        exact ⟨rfl, congrArg _ (failure_of_write (congrArg Prod.fst answer))⟩
      · rw [supply_output_of_ok answer] at refused
        cases refused
    | input => exact .inr ⟨rfl, failure_of_read refused⟩
    | moveLeft => cases refused
    | moveRight => cases refused
    | increment => cases refused
    | decrement => cases refused

end Console

namespace Run

variable {run final : Run} {options : Options} {program : Program} {error : RunError}

theorem eq_of_endingAfter {position : Nat} {intended : Ending}
    {result : Except DeviceFailure Unit} (fine : ∀ error, intended ≠ .failed error)
    (failed : endingAfter position intended result = .failed error) :
    ∃ failure, result = .error failure ∧ error = .device position failure := by
  cases result with
  | ok _ => exact absurd failed (fine error)
  | error failure => exact ⟨failure, rfl, (Ending.failed.inj failed).symm⟩

/-- A failing command has left the machine alone. -/
theorem fails_of_supply {instruction : Instruction} {failure : CommandFailure}
    (here : program[run.machine.position]? = some instruction)
    (untraced : options.traced = false)
    (refused : (run.console.supply options.mode options.prompt instruction
      run.machine.tape.current).1 = .error failure) :
    run.Fails options program (errorAfter run.machine.position options.mode failure)
      run.machine := by
  rcases Console.failure_of_supply refused with ⟨rfl, rfl⟩ | ⟨rfl, rfl | rfl | rfl⟩
  · exact .output here untraced
  · exact .refusal here untraced
  · exact .input .flushFailed here untraced (.inl rfl)
  · exact .input .inputFailed here untraced (.inr rfl)

/-- What is known of a step that fails. -/
theorem fails_of_advance (inside : run.machine.position ≤ program.size)
    (ends : run.advance options program = .ended (.failed error) final) :
    run.Fails options program error final.machine := by
  have outcome := outcome_advance run options program
  generalize run.advance options program = progress at outcome ends
  cases outcome with
  | finished past =>
    rcases Progress.ended.inj ends with ⟨failed, rfl⟩
    rcases eq_of_endingAfter (fun _ => by simp) failed with ⟨failure, refused, rfl⟩
    have last : run.machine.position = program.size :=
      Nat.le_antisymm inside (Array.getElem?_eq_none_iff.mp past)
    have concluding := @Fails.conclusion run options program failure last
      (Console.failure_of_conclude refused)
    rw [last]
    exact concluding
  | interrupted instruction here raised =>
    rcases Progress.ended.inj ends with ⟨failed, rfl⟩
    rcases eq_of_endingAfter (fun _ => by simp) failed with ⟨failure, refused, rfl⟩
    rw [Console.failure_of_flush refused]
    exact .interruption instruction here raised
  | limited instruction limit here free reached =>
    cases ends
    exact .limit instruction limit here reached
  | refused instruction failure console here untraced answer =>
    cases ends
    exact fails_of_supply here untraced (congrArg Prod.fst answer)
  | rowRefused instruction failure console machine here traced stepped answer =>
    cases ends
    rw [Console.failure_of_write (congrArg Prod.fst answer)]
    exact .row instruction machine here traced stepped
  | performed _ _ _ _ _ _ _ _ => cases ends
  | rowWritten _ _ _ _ _ _ _ => cases ends
  | stuck _ _ _ _ _ _ _ _ => cases ends
  | rowStuck _ _ _ _ _ => cases ends

/-- A real run fails between instructions only. -/
theorem Fails.machine_eq {machine : Machine} (untraced : options.traced = false)
    (fails : run.Fails options program error machine) : machine = run.machine := by
  cases fails with
  | row _ _ _ traced _ =>
    rw [untraced] at traced
    cases traced
  | _ => rfl

/-- A traced run fails by its limit or by a device. -/
theorem Fails.of_traced {machine : Machine} (traced : options.traced = true)
    (fails : run.Fails options program error machine) :
    (∃ limit, error = .stepLimit limit) ∨ ∃ position failure, error = .device position failure := by
  cases fails with
  | refusal _ untraced =>
    rw [traced] at untraced
    cases untraced
  | limit _ limit _ _ => exact .inl ⟨limit, rfl⟩
  | _ => exact .inr ⟨_, _, rfl⟩

theorem begin_failed {tape : Tape} {console : Console}
    (failed : begin options tape console = .ended (.failed error) final) :
    options.traced = true ∧ error = .device 0 .sinkFull ∧ final.machine = .load tape ∧
      final.steps = 0 := by
  revert failed
  apply begin_cases (motive := fun progress => progress = .ended (.failed error) final →
    options.traced = true ∧ error = .device 0 .sinkFull ∧ final.machine = .load tape ∧
      final.steps = 0)
  · intro _ failed
    cases failed
  · intro failure after traced answer failed
    cases failed
    rw [Console.failure_of_write (congrArg Prod.fst answer)]
    exact ⟨traced, rfl, rfl, rfl⟩
  · intro after _ _ failed
    cases failed

end Run

namespace Program

open Progress (running ended)

variable {program : Program} {options : Options} {tape : Tape} {console : Console}
  {signals : Signals} {budget : Nat} {error : RunError} {final : Run}

/-- Only a run whose last step was its conclusion has the notice in its
transcript. -/
theorem past_of_notice {how : Ending}
    (ends : program.executeAmid options tape console signals budget = ended how final)
    {passage : Passage}
    (member : passage ∈ program.transcript options tape console signals budget)
    (notice : passage.author = .notice) :
    ∃ run, program.executeAmid options tape console signals final.steps = running run ∧
      program[run.machine.position]? = none := by
  rcases exists_past_of_notice member notice with ⟨count, run, within, goes, past⟩
  rcases exists_ended_of_past goes past with ⟨how', final', concludes, counted⟩
  have same := executeAmid_of_le (Nat.succ_le_of_lt within) concludes
  rw [ends] at same
  rw [(Progress.ended.inj same).2, counted]
  exact ⟨run, goes, past⟩

theorem notice_notMem_of_begin {how : Ending}
    (begun : Run.begin options tape console = ended how final)
    (ends : program.executeAmid options tape console signals budget = ended how final) :
    ∀ passage ∈ program.transcript options tape console signals budget,
      passage.author ≠ .notice := by
  intro passage member notice
  rcases past_of_notice ends member notice with ⟨run, goes, _⟩
  rw [← @executeAmid_zero program options tape console signals] at begun
  rw [executeAmid_of_le (Nat.zero_le _) begun] at goes
  cases goes

theorem notice_notMem_of_inside {how : Ending} {run : Run}
    (ends : program.executeAmid options tape console signals budget = ended how final)
    (goes : program.executeAmid options tape console signals final.steps = running run)
    (inside : run.machine.position < program.size) :
    ∀ passage ∈ program.transcript options tape console signals budget,
      passage.author ≠ .notice := by
  intro passage member notice
  rcases past_of_notice ends member notice with ⟨last, same, past⟩
  rw [goes] at same
  cases same
  exact absurd inside (Nat.not_lt_of_le (Array.getElem?_eq_none_iff.mp past))

/-- A failing run is left at its last completed instruction.  Apart from a
header that is not accepted, it fails in front of a step, after exactly as
many instructions as it counts, in one of the ways of `Run.Fails`; a real run
leaves the machine as it was then.  A traced run fails by its limit or by a
device and refuses no input.  Nothing but the transcript is written, and the
completion notice is no part of it unless it was the conclusion that
failed. -/
theorem failures_of_executeAmid {source : String} (read : parse source = .ok program)
    (options : Options) (tape : Tape) (console : Console) (signals : Signals)
    (ends : program.executeAmid options tape console signals budget =
      ended (.failed error) final) :
    ((options.traced = true ∧ error = .device 0 .sinkFull ∧ final.machine = .load tape ∧
          final.steps = 0 ∧
          ∀ passage ∈ program.transcript options tape console signals budget,
            passage.author ≠ .notice) ∨
      ∃ run, run.steps = final.steps ∧
        program.executeAmid options tape console signals final.steps = running run ∧
        (run.signalled signals).Fails options program error final.machine ∧
        (options.traced = false → final.machine = run.machine) ∧
        (run.machine.position < program.size →
          ∀ passage ∈ program.transcript options tape console signals budget,
            passage.author ≠ .notice)) ∧
    (options.traced = true →
      (∃ limit, error = .stepLimit limit) ∨
        ∃ position failure, error = .device position failure) ∧
    final.console.output.accepted.toList <+:
      console.output.accepted.toList ++
        (program.transcript options tape console signals budget).flatMap Passage.bytes := by
  have balanced := balanced_of_parse read
  have written := accepted_prefix program options tape console signals budget
  rw [ends] at written
  rcases last_moment ends with begun | ⟨run, _, counted, goes, step⟩
  · rcases Run.begin_failed begun with ⟨traced, reported, loaded, none⟩
    exact ⟨.inl ⟨traced, reported, loaded, none, notice_notMem_of_begin begun ends⟩,
      fun _ => .inr ⟨0, .sinkFull, reported⟩, written⟩
  · have inside : run.machine.position ≤ program.size := inside_of_executeAmid balanced goes
    have fails : (run.signalled signals).Fails options program error final.machine :=
      Run.fails_of_advance inside step
    have kept (untraced : options.traced = false) : final.machine = run.machine := by
      rw [fails.machine_eq untraced, Run.machine_signalled]
    exact ⟨.inr ⟨run, counted, goes, fails, kept,
        notice_notMem_of_inside ends goes⟩,
      fun traced => fails.of_traced traced, written⟩

/-- The second reading finds no cell in its record.  It has shown the first
value by then, and moved back to the beginning of the loop. -/
theorem failure_at_second_reading :
    ∃ program final, parse "+[.,]" = .ok program ∧
      program.executeAmid { mode := .numeric } ⟨#[0, 0], 0, by decide⟩
        { input := [.bytes [55, 10, 51, 48, 48, 10]] } .silent 9 =
          ended (.failed (.invalidInput 3 .numeric)) final ∧
      final.steps = 6 ∧ final.machine.tape.cells = #[7, 0] ∧
      final.console.output.accepted.toList <+: [49, 32, 55] ∧
      ∀ passage ∈ program.transcript { mode := .numeric } ⟨#[0, 0], 0, by decide⟩
        { input := [.bytes [55, 10, 51, 48, 48, 10]] } .silent 9, passage.author ≠ .notice := by
  have read : parse "+[.,]" = .ok #[.command .increment, .loopStart, .command .output,
      .command .input, .loopEnd] := rfl
  have law := @failures_of_executeAmid _ 9 (.invalidInput 3 .numeric) _ "+[.,]" read
    { mode := .numeric } ⟨#[0, 0], 0, by decide⟩
    { input := [.bytes [55, 10, 51, 48, 48, 10]] } .silent rfl
  rcases law.1 with ⟨traced, _⟩ | ⟨run, counted, goes, _, same, quiet⟩
  · cases traced
  · cases goes
    exact ⟨_, _, read, rfl, rfl, congrArg (·.tape.cells) (same rfl), law.2.2, quiet (by decide)⟩

end Program
end RingTape
