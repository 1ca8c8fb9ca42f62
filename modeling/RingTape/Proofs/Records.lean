import RingTape.Proofs.Console
import RingTape.Proofs.Unnoticed

namespace RingTape

/-!
# Runs and the records that they take

A run takes the records of its script one after the other, each by one
reading, and it depends on the script through these records alone.  The
readings are counted, as the attempts of a run are.  One step takes a record
or none, and leaves the rest of the script as it was.  By induction a run is
found to have skipped as many records as it took, and to go the same way on
every script that begins with the same records.

Readings whose flush fails take nothing and are not counted.  Those that find
no cell in their record are counted like the others.
-/

namespace Run

open Console (withInput withPrompts unnoticed_withInput unnoticed_withPrompts)

variable {run : Run} {options : Options} {program : Program}

/-- How many records one step takes. -/
def takes (run : Run) (options : Options) (program : Program) : Nat :=
  (run.takesRecord options program).toNat

theorem takes_of_true (taking : run.takesRecord options program = true) :
    run.takes options program = 1 := by
  rw [takes, taking, Bool.toNat_true]

theorem takes_of_false (idle : run.takesRecord options program = false) :
    run.takes options program = 0 := by
  rw [takes, idle, Bool.toNat_false]

theorem input_advance (run : Run) (options : Options) (program : Program) :
    (run.advance options program).run.console.input =
      run.console.input.skip (run.takes options program) := by
  cases taking : run.takesRecord options program with
  | true =>
    rw [advance_of_takesRecord taking, takes_of_true taking, receiving]
    cases options.mode.answer run.console.input.takeRecord.1 <;> rfl
  | false =>
    have same : run.onConsole (withInput run.console.input) = run := rfl
    have passes := advance_onConsole (unnoticed_withInput run.console.input) taking
    rw [same] at passes
    rw [passes, takes_of_false taking]
    cases run.advance options program <;> rfl

theorem prompts_ask (console : Console) (prompt : Option String) :
    (console.ask prompt).prompts = console.prompts + prompt.isSome.toNat := by
  cases prompt <;> rfl

theorem prompts_advance (run : Run) (options : Options) (program : Program) :
    (run.advance options program).run.console.prompts =
      run.console.prompts + options.prompt.isSome.toNat * run.takes options program := by
  cases taking : run.takesRecord options program with
  | true =>
    have flushed : run.console.flush.2.prompts = run.console.prompts := rfl
    rw [advance_of_takesRecord taking, takes_of_true taking, receiving, Nat.mul_one, ← flushed,
      ← prompts_ask]
    cases options.mode.answer run.console.input.takeRecord.1 <;> rfl
  | false =>
    have same : run.onConsole (withPrompts run.console.prompts) = run := rfl
    have passes := advance_onConsole (unnoticed_withPrompts run.console.prompts) taking
    rw [same] at passes
    rw [passes, takes_of_false taking]
    cases run.advance options program <;> rfl

/-- On a script with the same next record, if a record is taken at all, a
step does the same and leaves the rest of that script. -/
theorem advance_withInput {script : InputScript}
    (same : run.takesRecord options program = true →
      script.record 0 = run.console.input.record 0) :
    (run.onConsole (withInput script)).advance options program =
      (run.advance options program).onConsole
        (withInput (script.skip (run.takes options program))) := by
  cases taking : run.takesRecord options program with
  | true =>
    have alike := (takesRecord_onConsole (unnoticed_withInput script)).trans taking
    have record : script.takeRecord.1 = run.console.input.takeRecord.1 := by
      rw [script.takeRecord_fst, run.console.input.takeRecord_fst, same taking]
    rw [advance_of_takesRecord alike, advance_of_takesRecord taking, takes_of_true taking,
      ← record]
    exact receiving_onConsole run options script.takeRecord.1 script _ script.takeRecord.2
  | false =>
    rw [takes_of_false taking]
    exact advance_onConsole (unnoticed_withInput script) taking

end Run

namespace Progress

open Console (withInput)

variable (options : Options) (program : Program) (signals : Signals)

/-- How many records are taken on the way. -/
def recordsTaken : Nat → Progress → Nat
  | count + 1, running run =>
    (run.signalled signals).takes options program +
      recordsTaken count ((run.signalled signals).advance options program)
  | _, _ => 0

/-- The unread input is the script after as many readings as took a record. -/
theorem input_iterateAmid (count : Nat) (progress : Progress) :
    (iterateAmid options program signals count progress).run.console.input =
      progress.run.console.input.skip (recordsTaken options program signals count progress) := by
  induction count generalizing progress with
  | zero => cases progress <;> rfl
  | succ count ih =>
    cases progress with
    | running run =>
      have step := Run.input_advance (run.signalled signals) options program
      rw [iterateAmid, ih, step, recordsTaken, InputScript.skip_add]
      rfl
    | ended how run => rfl
    | stuck why run => rfl

/-- A prompt is shown for every record that is taken, if there is one to show. -/
theorem prompts_iterateAmid (count : Nat) (progress : Progress) :
    (iterateAmid options program signals count progress).run.console.prompts =
      progress.run.console.prompts +
        options.prompt.isSome.toNat * recordsTaken options program signals count progress := by
  induction count generalizing progress with
  | zero => cases progress <;> rfl
  | succ count ih =>
    cases progress with
    | running run =>
      have step := Run.prompts_advance (run.signalled signals) options program
      rw [iterateAmid, ih, step, recordsTaken, Nat.mul_add, ← Nat.add_assoc]
      rfl
    | ended how run => rfl
    | stuck why run => rfl

/-- A run depends on its script through the records that it takes. -/
theorem iterateAmid_withInput (count : Nat) (progress : Progress) (script : InputScript)
    (same : ∀ index < recordsTaken options program signals count progress,
      script.record index = progress.run.console.input.record index) :
    iterateAmid options program signals count (progress.onConsole (withInput script)) =
      (iterateAmid options program signals count progress).onConsole
        (withInput (script.skip (recordsTaken options program signals count progress))) := by
  induction count generalizing progress script with
  | zero => cases progress <;> rfl
  | succ count ih =>
    cases progress with
    | running run =>
      have input : (run.signalled signals).console.input = run.console.input := rfl
      have first (taking : (run.signalled signals).takesRecord options program = true) :
          script.record 0 = (run.signalled signals).console.input.record 0 := by
        apply same 0
        rw [recordsTaken, Run.takes_of_true taking]
        omega
      -- The records that the rest of the run takes are those behind this step's.
      have later (index : Nat)
          (inside : index < recordsTaken options program signals count
            ((run.signalled signals).advance options program)) :
          (script.skip ((run.signalled signals).takes options program)).record index =
            ((run.signalled signals).advance options program).run.console.input.record index := by
        rw [Run.input_advance, input, InputScript.record_skip, InputScript.record_skip]
        apply same
        rw [recordsTaken]
        omega
      have step := Run.advance_withInput first
      have rest := ih ((run.signalled signals).advance options program) _ later
      rw [← step, ← InputScript.skip_add] at rest
      exact rest
    | ended how run => rfl
    | stuck why run => rfl

end Progress

namespace Program

open Console (withInput unnoticed_withInput)

/-- How many records a run takes within a budget. -/
def recordsTaken (program : Program) (options : Options) (tape : Tape) (console : Console)
    (signals : Signals) (budget : Nat) : Nat :=
  Progress.recordsTaken options program signals budget (Run.begin options tape console)

section Starting

variable (program : Program) (options : Options) (tape : Tape) (console : Console)
  (signals : Signals) (budget : Nat)

theorem input_executeAmid :
    (program.executeAmid options tape console signals budget).run.console.input =
      console.input.skip (program.recordsTaken options tape console signals budget) := by
  have fresh := (Run.keeps_begin Console.law_untouched options tape console).1
  rw [executeAmid, Progress.input_iterateAmid, fresh]
  rfl

theorem prompts_executeAmid :
    (program.executeAmid options tape console signals budget).run.console.prompts =
      console.prompts + options.prompt.isSome.toNat *
        program.recordsTaken options tape console signals budget := by
  have fresh := (Run.keeps_begin Console.law_untouched options tape console).2
  rw [executeAmid, Progress.prompts_iterateAmid, fresh]
  rfl

theorem executeAmid_withInput (script : InputScript)
    (same : ∀ index < program.recordsTaken options tape console signals budget,
      script.record index = console.input.record index) :
    program.executeAmid options tape (console.withInput script) signals budget =
      (program.executeAmid options tape console signals budget).onConsole
        (withInput (script.skip
          (program.recordsTaken options tape console signals budget))) := by
  rw [executeAmid, Run.begin_onConsole (unnoticed_withInput script)]
  apply Progress.iterateAmid_withInput
  rw [(Run.keeps_begin Console.law_untouched options tape console).1]
  exact same

/-- A reading takes the record behind those that were taken before it. -/
theorem advance_of_executeAmid {run : Run}
    (goes : program.executeAmid options tape console signals budget = .running run)
    (takes : (run.signalled signals).takesRecord options program = true) :
    (run.signalled signals).advance options program =
      (run.signalled signals).receiving options
        (console.input.record (program.recordsTaken options tape console signals budget))
        (console.input.skip (program.recordsTaken options tape console signals budget + 1)) := by
  have input := input_executeAmid program options tape console signals budget
  rw [goes] at input
  have unread : (run.signalled signals).console.input =
      console.input.skip (program.recordsTaken options tape console signals budget) := input
  rw [Run.advance_of_takesRecord takes, unread, InputScript.takeRecord_skip,
    InputScript.skip_add]
  rfl

/-- The same contents in other stretches lead to the same run. -/
theorem executeAmid_of_symbols {script : InputScript}
    (same : script.symbols = console.input.symbols) :
    ∃ rest : InputScript,
      rest.symbols =
        (program.executeAmid options tape console signals budget).run.console.input.symbols ∧
      program.executeAmid options tape (console.withInput script) signals budget =
        (program.executeAmid options tape console signals budget).onConsole (withInput rest) := by
  refine ⟨_, ?_, executeAmid_withInput program options tape console signals budget script
    fun index _ => InputScript.record_of_symbols same index⟩
  rw [input_executeAmid]
  exact InputScript.symbols_skip_of_symbols same _

end Starting

/-- Input is consumed by the record and nothing else about it matters.  At
every moment of a run the unread input is the script without the records that
were taken so far, and a prompt was shown for each of them.  A reading that
gets past its flush takes the record whose index is the number of readings
before it, and this record decides whether the run goes on with its cell or
ends with its failure.  On another script that begins with the same records
the run is the same, and so it is on a script with the same contents in
different stretches. -/
theorem records_of_executeAmid (program : Program) (options : Options) (tape : Tape)
    (console : Console) (signals : Signals) (budget : Nat) :
    let reached := program.executeAmid options tape console signals budget
    let taken := program.recordsTaken options tape console signals budget
    ((console.input.records.take taken).flatMap InputRecord.symbols ++
        reached.run.console.input.symbols = console.input.symbols ∧
      reached.run.console.input.records = console.input.records.drop taken) ∧
    reached.run.console.prompts = console.prompts + options.prompt.isSome.toNat * taken ∧
    (∀ run, reached = .running run →
      (run.signalled signals).takesRecord options program = true →
        (run.signalled signals).advance options program =
          (run.signalled signals).receiving options (console.input.record taken)
            (console.input.skip (taken + 1))) ∧
    (∀ script : InputScript,
      (∀ index < taken, script.record index = console.input.record index) →
        program.executeAmid options tape (console.withInput script) signals budget =
          reached.onConsole (withInput (script.skip taken))) ∧
    ∀ script : InputScript, script.symbols = console.input.symbols →
      ∃ rest : InputScript, rest.symbols = reached.run.console.input.symbols ∧
        program.executeAmid options tape (console.withInput script) signals budget =
          reached.onConsole (withInput rest) := by
  intro reached taken
  have input : reached.run.console.input = console.input.skip taken :=
    input_executeAmid program options tape console signals budget
  refine ⟨⟨?_, ?_⟩, prompts_executeAmid program options tape console signals budget,
    fun _ => advance_of_executeAmid program options tape console signals budget,
    executeAmid_withInput program options tape console signals budget,
    fun _ => executeAmid_of_symbols program options tape console signals budget⟩
  · rw [input]
    exact console.input.symbols_skip taken
  · rw [input]
    exact console.input.records_skip taken

/-- Two readings, the second of which meets a failure in the middle of its
line.  The line that was begun is lost with it, and what follows is left. -/
theorem records_at_failing_read :
    ∃ program run, parse ",," = .ok program ∧
      program.executeAmid { mode := .numeric, prompt := some "" } ⟨#[0], 0, by decide⟩
        { input := [.bytes [55], .bytes [10, 53], .failure .other, .bytes [49]] } .silent 1 =
          .running run ∧
      run.machine.tape.current = 7 ∧
      (run.signalled .silent).takesRecord { mode := .numeric, prompt := some "" } program = true ∧
      (run.signalled .silent).advance { mode := .numeric, prompt := some "" } program =
        (run.signalled .silent).receiving { mode := .numeric, prompt := some "" }
          (.failed [53] .other) [.bytes [49]] ∧
      run.console.prompts = 1 ∧
      run.console.input.symbols = [.byte 53, .failure .other, .byte 49] ∧
      program.executeAmid { mode := .numeric, prompt := some "" } ⟨#[0], 0, by decide⟩
        { input := [.bytes [55, 10], .bytes [200]] } .silent 1 =
          .running (run.onConsole (withInput [.bytes [], .bytes [200]])) := by
  have read : parse ",," = .ok #[.command .input, .command .input] := rfl
  have law := records_of_executeAmid #[.command .input, .command .input]
    { mode := .numeric, prompt := some "" } ⟨#[0], 0, by decide⟩
    { input := [.bytes [55], .bytes [10, 53], .failure .other, .bytes [49]] } .silent 1
  rcases law with ⟨⟨unread, _⟩, prompts, reading, alike, _⟩
  have first : ∀ index < 1, InputScript.record [.bytes [55, 10], .bytes [200]] index =
      InputScript.record [.bytes [55], .bytes [10, 53], .failure .other, .bytes [49]] index := by
    intro index inside
    have same : index = 0 := by omega
    rw [same]
    rfl
  exact ⟨_, _, read, rfl, rfl, rfl, reading _ rfl rfl, prompts,
    List.append_cancel_left unread, alike [.bytes [55, 10], .bytes [200]] first⟩

end Program
end RingTape
