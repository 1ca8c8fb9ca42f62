import RingTape.Proofs.Unnoticed
import RingTape.Proofs.Writing

namespace RingTape

/-!
# Changes that only writing can notice

Two consoles may differ in how much their sinks still take, or in what makes
their stop flags go up.  As long as a write comes out alike on both, so does
everything else that a step asks of them.  So such a change passes through
every step whose passage is written alike (`Run.passes_of_written`), and it
is enough to look at the passages to see how far two runs go together
(`Program.executeAmid_onConsole`).
-/

/-- A change of the console that none of its operations notices but writing,
and looking at the flag. -/
structure Console.Slight (change : Console → Console) : Prop where
  emitted : ∀ console, (change console).emitted = console.emitted
  recount : ∀ console emitted,
    ({ change console with emitted := emitted } : Console) =
      change { console with emitted := emitted }
  flush : ∀ console, (change console).flush = console.flush.map id change
  ask : ∀ console prompt, (change console).ask prompt = change (console.ask prompt)
  receive : ∀ console mode, (change console).receive mode = (console.receive mode).map id change

namespace Console.Slight

variable {change : Console → Console} {console : Console} {mode : Mode} {cell : UInt8}

theorem emission (slight : Slight change) (console : Console) (mode : Mode) (cell : UInt8) :
    (change console).emission mode cell = console.emission mode cell := by
  simp only [Console.emission, slight.emitted]

theorem conclude (slight : Slight change)
    (written : (change console).write completionNotice =
      (console.write completionNotice).map id change) :
    (change console).conclude = console.conclude.map id change := by
  simp only [Console.conclude, written]
  rcases console.write completionNotice with ⟨_ | _, after⟩
  · rfl
  · exact slight.flush after

theorem supply_output (slight : Slight change) (prompt : Option String)
    (written : (change console).write (console.emission mode cell) =
      (console.write (console.emission mode cell)).map id change) :
    (change console).supply mode prompt (.command .output) cell =
      (console.supply mode prompt (.command .output) cell).map id change := by
  have same := slight.emission console mode cell
  rcases answer : console.write (console.emission mode cell) with ⟨failure | _, after⟩
  · rw [answer] at written
    rw [supply_output_of_error answer]
    exact supply_output_of_error (same ▸ written)
  · rw [answer] at written
    have accepted : (change console).write ((change console).emission mode cell) =
        (.ok (), change after) := same ▸ written
    rw [supply_output_of_ok answer, supply_output_of_ok accepted, slight.emitted, slight.recount]
    rfl

theorem read (slight : Slight change) (console : Console) (mode : Mode)
    (prompt : Option String) :
    (change console).read mode prompt = (console.read mode prompt).map id change := by
  simp only [Console.read, slight.flush]
  rcases console.flush with ⟨_ | _, after⟩
  · rfl
  · simp only [Prod.map, id_eq, slight.ask, slight.receive]

/-- An instruction other than output has nothing to write. -/
theorem supply_of_quiet (slight : Slight change) {instruction : Instruction}
    (quiet : instruction ≠ .command .output) (console : Console) (mode : Mode)
    (prompt : Option String) (cell : UInt8) :
    (change console).supply mode prompt instruction cell =
      (console.supply mode prompt instruction cell).map id change := by
  cases instruction with
  | loopStart => rfl
  | loopEnd => rfl
  | command action =>
    cases action with
    | output => exact absurd rfl quiet
    | input => exact slight.read console mode prompt
    | moveLeft => rfl
    | moveRight => rfl
    | increment => rfl
    | decrement => rfl

end Console.Slight

namespace Run

open Console (Slight)

variable {change : Console → Console} {run : Run} {options : Options} {program : Program}

/-- A step does not notice a slight change if it sees the same flag and its
passage is written alike. -/
theorem passes_of_written (slight : Slight change)
    (flag : ∀ instruction, program[run.machine.position]? = some instruction →
      (change run.console).stopped = run.console.stopped)
    (written : (change run.console).write (run.passage options program).text =
      (run.console.write (run.passage options program).text).map id change) :
    run.Passes change options program where
  stopped := flag
  flush := slight.flush run.console
  conclude past := by
    rw [passage_of_none past] at written
    exact slight.conclude written
  supply instruction here tried untraced := by
    rw [passage_of_attempts here tried] at written
    by_cases quiet : instruction = .command .output
    · subst quiet
      rw [instructionText_of_output untraced] at written
      exact slight.supply_output options.prompt written
    · exact slight.supply_of_quiet quiet run.console _ _ _
  row instruction machine here tried traced stepped := by
    rw [passage_of_attempts here tried, instructionText_of_stepped traced stepped] at written
    exact written

/-- Neither the text of a passage nor its author depends on the sink. -/
theorem passage_onConsole (slight : Slight change)
    (flag : (change run.console).stopped = run.console.stopped) :
    (run.onConsole change).passage options program = run.passage options program := by
  have tried : (run.onConsole change).attempts options program =
      run.attempts options program := by
    simp only [attempts, onConsole, flag, exhaustedLimit]
    rfl
  have texts (instruction : Instruction) :
      (run.onConsole change).instructionText options program instruction =
        run.instructionText options program instruction := by
    simp only [instructionText, onConsole, slight.emission]
    rfl
  simp only [passage, tried, texts]
  rfl

/-- A slight change of the console passes through the beginning if the
header is written alike. -/
theorem begin_of_opening {console : Console} (slight : Slight change)
    (written : (change { console with emitted := 0 }).write (opening options) =
      (({ console with emitted := 0 } : Console).write (opening options)).map id change)
    (tape : Tape) :
    begin options tape (change console) = (begin options tape console).onConsole change := by
  refine begin_of_written (slight.recount console 0) (fun traced => ?_) tape
  rw [opening_of_traced traced] at written
  exact written

/-- The author of a passage is where a failing write is reported. -/
theorem position_passage (inside : run.machine.position ≤ program.size) :
    (run.passage options program).author.position program = run.machine.position := by
  cases here : program[run.machine.position]? with
  | none =>
    rw [passage_of_none here]
    exact Nat.le_antisymm (Array.getElem?_eq_none_iff.mp here) inside
  | some instruction =>
    simp only [passage, here]
    rfl

end Run

namespace Program

open Progress (running)

theorem onConsole_ne_running {change : Console → Console} {progress : Progress}
    (stops : ∀ run, progress ≠ running run) (run : Run) :
    progress.onConsole change ≠ running run := by
  cases progress with
  | running before => exact absurd rfl (stops before)
  | ended how final => intro impossible; cases impossible
  | stuck why final => intro impossible; cases impossible

/-- A change that passes through the beginning and through every step up to
some moment passes through the run up to that moment. -/
theorem executeAmid_onConsole {change : Console → Console} {program : Program}
    {options : Options} {tape : Tape} {console : Console} {signals : Signals} {budget : Nat}
    (begins : Run.begin options tape (change console) =
      (Run.begin options tape console).onConsole change)
    (step : ∀ count run, count < budget →
      program.executeAmid options tape console signals count = running run →
        ((run.onConsole change).signalled signals).advance options program =
          ((run.signalled signals).advance options program).onConsole change) :
    program.executeAmid options tape (change console) signals budget =
      (program.executeAmid options tape console signals budget).onConsole change := by
  induction budget with
  | zero => rw [executeAmid_zero, executeAmid_zero, begins]
  | succ budget ih =>
    have abreast := ih fun count run less => step count run (Nat.lt_succ_of_lt less)
    by_cases going : ∃ run, program.executeAmid options tape console signals budget = running run
    · rcases going with ⟨run, reached⟩
      have next := step budget run (Nat.lt_succ_self budget) reached
      rw [reached] at abreast
      rw [executeAmid_succ_of_running abreast, executeAmid_succ_of_running reached, next]
    · have stops := not_exists.mp going
      have alsoStops := @onConsole_ne_running change _ stops
      rw [← abreast] at alsoStops
      rw [executeAmid_succ_of_over alsoStops, executeAmid_succ_of_over stops, abreast]

end Program
end RingTape
