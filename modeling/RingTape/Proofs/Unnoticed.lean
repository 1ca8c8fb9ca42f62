import RingTape.Console.Records
import RingTape.Proofs.Advance
import RingTape.Signals

namespace RingTape

/-!
# Changes that only reading notices

Two runs may differ in what there is to read, or in how many prompts were
shown, and yet go the same way for a long time.  A change of the console that
writing, flushing and looking at the flag do not notice passes through every
step which takes no record (`Run.advance_onConsole`).  In particular such a
step leaves the input and the prompts as they were, because putting back what
is there already changes nothing.

A step which takes a record has a closed form: the console is flushed, the
prompt is shown, and the record decides how the run goes on
(`Run.advance_of_takesRecord`).
-/

namespace Console

/-- A change of the console that nothing notices but flushing and reading. -/
structure Latent (change : Console → Console) : Prop where
  stopped : ∀ console, (change console).stopped = console.stopped
  emitted : ∀ console, (change console).emitted = console.emitted
  recount : ∀ console emitted,
    ({ change console with emitted := emitted } : Console) =
      change { console with emitted := emitted }
  write : ∀ console text, (change console).write text = (console.write text).map id change

/-- A change of the console that none of its operations notices but reading. -/
structure Unnoticed (change : Console → Console) : Prop where
  stopped : ∀ console, (change console).stopped = console.stopped
  emitted : ∀ console, (change console).emitted = console.emitted
  recount : ∀ console emitted,
    ({ change console with emitted := emitted } : Console) =
      change { console with emitted := emitted }
  write : ∀ console text, (change console).write text = (console.write text).map id change
  flush : ∀ console, (change console).flush = console.flush.map id change

/-- The console with another input. -/
def withInput (script : InputScript) (console : Console) : Console :=
  { console with input := script }

/-- The console with another number of prompts. -/
def withPrompts (count : Nat) (console : Console) : Console :=
  { console with prompts := count }

theorem unnoticed_withInput (script : InputScript) : Unnoticed (withInput script) where
  stopped _ := rfl
  emitted _ := rfl
  recount _ _ := rfl
  write _ _ := rfl
  flush _ := rfl

theorem unnoticed_withPrompts (count : Nat) : Unnoticed (withPrompts count) where
  stopped _ := rfl
  emitted _ := rfl
  recount _ _ := rfl
  write _ _ := rfl
  flush _ := rfl

namespace Latent

variable {change : Console → Console}

theorem emit (latent : Latent change) (console : Console) (mode : Mode) (cell : UInt8) :
    (change console).emit mode cell = (console.emit mode cell).map id change := by
  unfold Console.emit
  extract_lets changed separator
  have same : changed = separator := by simp only [changed, separator, latent.emitted]
  rw [same, latent.write]
  rcases console.write (separator ++ mode.render cell) with ⟨_ | _, after⟩
  · rfl
  · have counted := latent.recount after (after.emitted + 1)
    simp only [Prod.map, id_eq, latent.emitted, counted]

/-- An instruction that reads nothing does not notice the change. -/
theorem supply (latent : Latent change) (console : Console) (mode : Mode)
    (prompt : Option String) {instruction : Instruction} (cell : UInt8)
    (quiet : instruction ≠ .command .input) :
    (change console).supply mode prompt instruction cell =
      (console.supply mode prompt instruction cell).map id change := by
  cases instruction with
  | loopStart => rfl
  | loopEnd => rfl
  | command action =>
    cases action with
    | output =>
      simp only [Console.supply, latent.emit]
      rcases console.emit mode cell with ⟨_ | _, after⟩ <;> rfl
    | input => exact absurd rfl quiet
    | moveLeft => rfl
    | moveRight => rfl
    | increment => rfl
    | decrement => rfl

end Latent

namespace Unnoticed

variable {change : Console → Console}

theorem latent (unnoticed : Unnoticed change) : Latent change :=
  ⟨unnoticed.stopped, unnoticed.emitted, unnoticed.recount, unnoticed.write⟩

theorem conclude (unnoticed : Unnoticed change) (console : Console) :
    (change console).conclude = console.conclude.map id change := by
  simp only [Console.conclude, unnoticed.write]
  rcases console.write completionNotice with ⟨_ | _, after⟩
  · rfl
  · exact unnoticed.flush after

/-- An instruction that takes no record does not notice the change. -/
theorem supply (unnoticed : Unnoticed change) (console : Console) (mode : Mode)
    (prompt : Option String) {instruction : Instruction} (cell : UInt8)
    (idle : instruction = .command .input → console.flush.1.isOk = false) :
    (change console).supply mode prompt instruction cell =
      (console.supply mode prompt instruction cell).map id change := by
  by_cases reading : instruction = .command .input
  · have failed := idle reading
    rw [reading]
    simp only [Console.supply, Console.read, unnoticed.flush]
    rcases flushed : console.flush with ⟨_ | _, after⟩
    · rfl
    · rw [flushed] at failed
      cases failed
  · exact unnoticed.latent.supply console mode prompt cell reading

end Unnoticed
end Console

/-- A run with its console changed. -/
def Run.onConsole (change : Console → Console) (run : Run) : Run :=
  { run with console := change run.console }

/-- A run with its console changed, however far it has come. -/
def Progress.onConsole (change : Console → Console) : Progress → Progress
  | running run => running (run.onConsole change)
  | ended how run => ended how (run.onConsole change)
  | stuck why run => stuck why (run.onConsole change)

namespace Run

open Console (Unnoticed)

/-- What becomes of a run by the record that it takes. -/
def receiving (run : Run) (options : Options) (record : InputRecord) (rest : InputScript) :
    Progress :=
  let console := (run.console.flush.2.ask options.prompt).withInput rest
  match options.mode.answer record with
  | .ok cell =>
    .running ⟨{ run.machine with
      position := run.machine.position + 1
      tape := run.machine.tape.put cell }, run.steps + 1, console⟩
  | .error failure =>
    .ended (.failed (errorAfter run.machine.position options.mode failure))
      { run with console := console }

section Steps

variable {change : Console → Console} {run : Run} {options : Options} {program : Program}

theorem awaitsInput_iff :
    run.awaitsInput options program = true ↔
      options.traced = false ∧ run.console.stopped = false ∧
        run.exhaustedLimit options = none ∧
        program[run.machine.position]? = some (.command .input) := by
  simp only [awaitsInput, Bool.and_eq_true, Bool.not_eq_true', Option.isNone_iff_eq_none,
    beq_iff_eq, and_assoc]

theorem takesRecord_onConsole (unnoticed : Unnoticed change) :
    (run.onConsole change).takesRecord options program = run.takesRecord options program := by
  simp only [takesRecord, awaitsInput, onConsole, exhaustedLimit, unnoticed.stopped,
    unnoticed.flush, Prod.map_fst, id_eq]
  rfl

/-- A change that the console makes another one of, while it answers alike,
is that other change afterwards. -/
theorem perform_onConsole {other : Console → Console} {instruction : Instruction}
    (supplied : (change run.console).supply options.mode options.prompt instruction
        run.machine.tape.current =
      (run.console.supply options.mode options.prompt instruction
        run.machine.tape.current).map id other) :
    (run.onConsole change).perform options program instruction =
      (run.perform options program instruction).onConsole other := by
  rcases answer : run.console.supply options.mode options.prompt instruction
    run.machine.tape.current with ⟨failure | value, after⟩
  · rw [answer] at supplied
    rw [perform_of_error answer]
    exact perform_of_error supplied
  · rw [answer] at supplied
    cases stepped : run.machine.step program instruction value with
    | error reason =>
      rw [perform_of_stuck answer stepped]
      exact perform_of_stuck supplied stepped
    | ok machine =>
      rw [perform_of_ok answer stepped]
      exact perform_of_ok supplied stepped

theorem trace_onConsole {instruction : Instruction}
    (written : ∀ machine, run.machine.step program instruction 0 = .ok machine →
      (change run.console).write (run.rowText options instruction machine) =
        (run.console.write (run.rowText options instruction machine)).map id change) :
    (run.onConsole change).trace options program instruction =
      (run.trace options program instruction).onConsole change := by
  cases stepped : run.machine.step program instruction 0 with
  | error reason =>
    rw [trace_of_stuck stepped]
    exact trace_of_stuck stepped
  | ok machine =>
    have accepted := written machine stepped
    rcases answer : run.console.write (run.rowText options instruction machine) with
      ⟨failure | _, after⟩
    · rw [answer] at accepted
      rw [trace_of_error stepped answer]
      exact trace_of_error stepped accepted
    · rw [answer] at accepted
      rw [trace_of_ok stepped answer]
      exact trace_of_ok stepped accepted

/-- A step does not notice the change: whatever it asks of the console is
answered alike, and the change is still there afterwards. -/
structure Passes (change : Console → Console) (run : Run) (options : Options)
    (program : Program) : Prop where
  stopped : ∀ instruction, program[run.machine.position]? = some instruction →
    (change run.console).stopped = run.console.stopped
  flush : (change run.console).flush = run.console.flush.map id change
  conclude : program[run.machine.position]? = none →
    (change run.console).conclude = run.console.conclude.map id change
  supply : ∀ instruction, program[run.machine.position]? = some instruction →
    run.attempts options program = true → options.traced = false →
      (change run.console).supply options.mode options.prompt instruction
          run.machine.tape.current =
        (run.console.supply options.mode options.prompt instruction
          run.machine.tape.current).map id change
  row : ∀ instruction machine, program[run.machine.position]? = some instruction →
    run.attempts options program = true → options.traced = true →
      run.machine.step program instruction 0 = .ok machine →
        (change run.console).write (run.rowText options instruction machine) =
          (run.console.write (run.rowText options instruction machine)).map id change

/-- A change that a step does not notice passes through it. -/
theorem advance_of_passes (passes : run.Passes change options program) :
    (run.onConsole change).advance options program =
      (run.advance options program).onConsole change := by
  cases here : program[run.machine.position]? with
  | none =>
    have concluded := passes.conclude here
    have there : program[(run.onConsole change).machine.position]? = none := here
    rw [advance_of_none here, finish_eq, advance_of_none there, finish_eq]
    simp only [onConsole, Progress.onConsole, concluded, Prod.map_fst, Prod.map_snd, id_eq]
  | some instruction =>
    have there : program[(run.onConsole change).machine.position]? = some instruction := here
    have flag : (run.onConsole change).console.stopped = run.console.stopped :=
      passes.stopped instruction here
    cases free : run.console.stopped with
    | true =>
      have flushed := passes.flush
      rw [advance_of_stopped here free, interrupt_eq, advance_of_stopped there (flag.trans free),
        interrupt_eq]
      simp only [onConsole, Progress.onConsole, flushed, Prod.map_fst, Prod.map_snd, id_eq]
    | false =>
      cases room : run.exhaustedLimit options with
      | some limit =>
        rw [advance_of_limit here free room, advance_of_limit there (flag.trans free) room]
        rfl
      | none =>
        have tried := attempts_iff.mpr ⟨⟨instruction, here⟩, free, room⟩
        cases traced : options.traced with
        | true =>
          rw [advance_of_traced here free room traced,
            advance_of_traced there (flag.trans free) room traced]
          exact trace_onConsole fun machine => passes.row instruction machine here tried traced
        | false =>
          rw [advance_of_untraced here free room traced,
            advance_of_untraced there (flag.trans free) room traced]
          exact perform_onConsole (passes.supply instruction here tried traced)

/-- A change that only reading notices passes through a step that takes no
record. -/
theorem advance_onConsole (unnoticed : Unnoticed change)
    (idle : run.takesRecord options program = false) :
    (run.onConsole change).advance options program =
      (run.advance options program).onConsole change := by
  refine advance_of_passes
    ⟨fun _ _ => unnoticed.stopped run.console, unnoticed.flush run.console,
      fun _ => unnoticed.conclude run.console, ?_, fun _ _ _ _ _ _ => unnoticed.write _ _⟩
  -- The instruction may be a reading all the same, but then its flush fails.
  intro instruction here tried untraced
  refine unnoticed.supply run.console _ _ _ fun reading => ?_
  rw [reading] at here
  rcases attempts_iff.mp tried with ⟨_, free, room⟩
  rw [takesRecord, awaitsInput_iff.mpr ⟨untraced, free, room, here⟩, Bool.true_and] at idle
  exact idle

/-- A step that takes a record goes the way the record decides. -/
theorem advance_of_takesRecord (takes : run.takesRecord options program = true) :
    run.advance options program =
      run.receiving options run.console.input.takeRecord.1 run.console.input.takeRecord.2 := by
  rcases Bool.and_eq_true_iff.mp takes with ⟨awaits, granted⟩
  rcases awaitsInput_iff.mp awaits with ⟨untraced, free, room, here⟩
  rw [advance_of_untraced here free room untraced]
  rcases flushed : run.console.flush with ⟨failure | _, after⟩
  · rw [flushed] at granted
    cases granted
  · have kept : (after.ask options.prompt).input = run.console.input := by
      have same : run.console.flush.2.input = run.console.input := rfl
      rw [flushed] at same
      cases options.prompt <;> exact same
    have supplied : run.console.supply options.mode options.prompt (.command .input)
        run.machine.tape.current = (options.mode.answer run.console.input.takeRecord.1,
          (after.ask options.prompt).withInput run.console.input.takeRecord.2) := by
      simp only [Console.supply, Console.read, flushed, Console.receive_eq, kept]
      rfl
    cases answer : options.mode.answer run.console.input.takeRecord.1 with
    | error failure =>
      rw [answer] at supplied
      rw [perform_of_error supplied]
      simp only [receiving, answer, flushed]
    | ok cell =>
      rw [answer] at supplied
      rw [perform_of_ok supplied rfl]
      simp only [receiving, answer, flushed]
      rfl

/-- What the record decides does not depend on the rest of the script. -/
theorem receiving_onConsole (run : Run) (options : Options) (record : InputRecord)
    (script rest other : InputScript) :
    (run.onConsole (Console.withInput script)).receiving options record other =
      (run.receiving options record rest).onConsole (Console.withInput other) := by
  have flushed : (run.onConsole (Console.withInput script)).console.flush.2 =
      run.console.flush.2.withInput script :=
    congrArg Prod.snd ((Console.unnoticed_withInput script).flush run.console)
  have asked : ((run.console.flush.2.withInput script).ask options.prompt).withInput other =
      ((run.console.flush.2.ask options.prompt).withInput rest).withInput other := by
    cases options.prompt <;> rfl
  cases answer : options.mode.answer record with
  | error failure =>
    simp only [receiving, answer, flushed, asked, Progress.onConsole]
    rfl
  | ok cell =>
    simp only [receiving, answer, flushed, asked, Progress.onConsole]
    rfl

/-- A change that the beginning of a run does not notice passes through it. -/
theorem begin_of_written {console : Console}
    (recounted : ({ change console with emitted := 0 } : Console) =
      change { console with emitted := 0 })
    (written : options.traced = true →
      (change { console with emitted := 0 }).write Trace.header =
        (({ console with emitted := 0 } : Console).write Trace.header).map id change)
    (tape : Tape) :
    begin options tape (change console) = (begin options tape console).onConsole change := by
  simp only [begin, recounted]
  split
  · next traced =>
    rw [written traced]
    rcases ({ console with emitted := 0 } : Console).write Trace.header with ⟨_ | _, after⟩ <;> rfl
  · rfl

theorem begin_onConsole (unnoticed : Unnoticed change) (options : Options) (tape : Tape)
    (console : Console) :
    begin options tape (change console) = (begin options tape console).onConsole change :=
  begin_of_written (unnoticed.recount console 0) (fun _ => unnoticed.write _ Trace.header) tape

end Steps
end Run
end RingTape
