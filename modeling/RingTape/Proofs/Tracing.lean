import RingTape.Proofs.Console

namespace RingTape

/-!
# Traced runs

A traced run moves its machine exactly as a real run does that reads zero
from every record.  The two differ in what they do to their consoles and in
nothing else.  To say so, `Progress.bare` forgets the consoles, and the
consoles are such that nothing fails on them.

A real run needs records that denote zero, and an endless supply of them is
no script.  But a run reads at most one record for each instruction.  So for
a run of a given length every script will do whose beginning supplies as
many records, and an endless supply is what holds for every script that is
long enough.
-/

namespace InputScript

/-- The first records of a script, so many of them, all denote zero. -/
def SuppliesZeros (mode : Mode) : Nat → InputScript → Prop
  | 0, _ => True
  | count + 1, script =>
    ∃ content rest, script.takeRecord = (.line content, rest) ∧
      mode.decode? content = some 0 ∧ SuppliesZeros mode count rest

/-- A line that denotes zero. -/
def zeroLine : Mode → List UInt8
  | .character => [0, lineFeed]
  | .numeric => [48, lineFeed]

/-- A script of so many lines that denote zero. -/
def zeros (mode : Mode) (count : Nat) : InputScript :=
  ofBytes (List.replicate count (zeroLine mode)).flatten

theorem suppliesZeros_of_le {mode : Mode} {few many : Nat} {script : InputScript}
    (less : few ≤ many) (supplied : script.SuppliesZeros mode many) :
    script.SuppliesZeros mode few := by
  induction few generalizing many script with
  | zero => trivial
  | succ few ih =>
    cases many with
    | zero => exact absurd less (Nat.not_succ_le_zero few)
    | succ many =>
      rcases supplied with ⟨content, rest, taken, denotes, more⟩
      exact ⟨content, rest, taken, denotes, ih (Nat.le_of_succ_le_succ less) more⟩

theorem decode?_zeroLine (mode : Mode) : mode.decode? (zeroLine mode) = some 0 := by
  cases mode <;> rfl

theorem takeRecord_zeros (mode : Mode) (count : Nat) :
    (zeros mode (count + 1)).takeRecord = (.line (zeroLine mode), zeros mode count) := by
  rw [zeros, List.replicate_succ, List.flatten_cons]
  cases mode <;> rfl

theorem suppliesZeros_zeros (mode : Mode) (count : Nat) :
    (zeros mode count).SuppliesZeros mode count := by
  induction count with
  | zero => trivial
  | succ count ih =>
    exact ⟨zeroLine mode, zeros mode count, takeRecord_zeros mode count, decode?_zeroLine mode, ih⟩

end InputScript

namespace Progress

/-- How far a run has come, without its console. -/
def bare : Progress → Progress
  | running run => running { run with console := {} }
  | ended how run => ended how { run with console := {} }
  | stuck why run => stuck why { run with console := {} }

/-- How a run ended, after how many instructions, and with which tape. -/
def verdict? : Progress → Option (Ending × Nat × Tape)
  | ended how run => some (how, run.steps, run.machine.tape)
  | running _ | stuck _ _ => none

theorem exists_ended_of_verdict? {progress : Progress} {how : Ending} {steps : Nat}
    {final : Tape} (ends : progress.verdict? = some (how, steps, final)) :
    ∃ run, progress = ended how run ∧ run.steps = steps ∧ run.machine.tape = final := by
  cases progress with
  | running run => cases ends
  | stuck why run => cases ends
  | ended how' run =>
    cases ends
    exact ⟨run, rfl, rfl, rfl⟩

theorem verdict?_of_bare_eq {first second : Progress} (alike : first.bare = second.bare) :
    first.verdict? = second.verdict? := by
  have forget (progress : Progress) : progress.bare.verdict? = progress.verdict? := by
    cases progress <;> rfl
  rw [← forget first, alike, forget second]

end Progress

namespace Console

variable {console : Console} {mode : Mode} {count : Nat}

theorem input_ask (console : Console) (prompt : Option String) :
    (console.ask prompt).input = console.input := by
  cases prompt <;> rfl

/-- Reading takes the next record, whose zero it answers. -/
theorem read_of_suppliesZeros (reliable : console.output.Reliable) (prompt : Option String)
    (supplied : console.input.SuppliesZeros mode (count + 1)) :
    (console.read mode prompt).1 = .ok 0 ∧
      (console.read mode prompt).2.input.SuppliesZeros mode count := by
  rcases supplied with ⟨content, rest, taken, denotes, more⟩
  have flushed : console.flush = (.ok (), console.flush.2) :=
    Prod.ext (flush_fst_of_reliable reliable) rfl
  have input : (console.flush.2.ask prompt).input.takeRecord = (.line content, rest) := by
    rw [input_ask, (law_untouched.flush console).1, taken]
  rw [read, flushed]
  simp only [receive, input, denotes]
  exact ⟨trivial, more⟩

/-- On a console where nothing fails, and whose script begins with records
that denote zero, an instruction is supplied with a value that has the same
effect as zero. -/
theorem supply_of_suppliesZeros (reliable : console.output.Reliable) (prompt : Option String)
    (supplied : console.input.SuppliesZeros mode (count + 1)) (instruction : Instruction)
    (cell : UInt8) :
    ∃ value after, console.supply mode prompt instruction cell = (.ok value, after) ∧
      after.input.SuppliesZeros mode count ∧
      ∀ (machine : Machine) program,
        machine.step program instruction value = machine.step program instruction 0 := by
  have fewer := InputScript.suppliesZeros_of_le (Nat.le_succ count) supplied
  cases instruction with
  | loopStart => exact ⟨cell, console, rfl, fewer, fun _ _ => rfl⟩
  | loopEnd => exact ⟨cell, console, rfl, fewer, fun _ _ => rfl⟩
  | command action =>
    cases action with
    | input =>
      rcases read_of_suppliesZeros reliable prompt supplied with ⟨zero, rest⟩
      refine ⟨0, (console.read mode prompt).2, ?_, rest, fun _ _ => rfl⟩
      rw [← zero]
      rfl
    | output =>
      have emitted : console.emit mode cell = (.ok (), (console.emit mode cell).2) :=
        Prod.ext (emit_fst_of_reliable reliable mode cell) rfl
      refine ⟨cell, (console.emit mode cell).2, ?_, ?_, fun _ _ => rfl⟩
      · rw [supply, emitted]
      · rw [(law_untouched.emit console mode cell).1]
        exact fewer
    | moveLeft => exact ⟨cell, console, rfl, fewer, fun _ _ => rfl⟩
    | moveRight => exact ⟨cell, console, rfl, fewer, fun _ _ => rfl⟩
    | increment => exact ⟨cell, console, rfl, fewer, fun _ _ => rfl⟩
    | decrement => exact ⟨cell, console, rfl, fewer, fun _ _ => rfl⟩

end Console

/-- The same options for a traced run or for a real one. -/
def Options.withTrace (options : Options) (traced : Bool) : Options :=
  { options with traced := traced }

/-- A traced and a real run that stand at the same place, nothing being
wrong with their consoles, and with so many zeros ahead of the real one. -/
structure Run.Abreast (mode : Mode) (count : Nat) (traced real : Run) : Prop where
  machine : traced.machine = real.machine
  steps : traced.steps = real.steps
  tracedUndisturbed : traced.console.Undisturbed
  realUndisturbed : real.console.Undisturbed
  zeros : real.console.input.SuppliesZeros mode count

namespace Run

variable {options : Options} {program : Program} {count : Nat} {traced real : Run}

/-- A row is always written if nothing is wrong with the console. -/
theorem trace_of_undisturbed {machine : Machine} {instruction : Instruction}
    (good : traced.console.Undisturbed)
    (stepped : traced.machine.step program instruction 0 = .ok machine) :
    ∃ console, console.Undisturbed ∧
      traced.trace options program instruction =
        .running ⟨machine, traced.steps + 1, console⟩ := by
  have written := Console.write_fst_of_reliable good.reliable
    (traced.rowText options instruction machine)
  have kept := Console.law_undisturbed.write traced.console
    (traced.rowText options instruction machine) good
  exact ⟨_, kept, trace_of_ok stepped (Prod.ext written rfl)⟩

/-- What one step preserves: two runs that stand abreast stand abreast again,
with one zero less ahead, or end alike. -/
theorem abreast_advance (abreast : Abreast options.mode (count + 1) traced real) :
    (∃ tracedNext realNext, Abreast options.mode count tracedNext realNext ∧
      traced.advance (options.withTrace true) program = .running tracedNext ∧
      real.advance (options.withTrace false) program = .running realNext) ∨
    (traced.advance (options.withTrace true) program).bare =
        (real.advance (options.withTrace false) program).bare ∧
      ∀ run, real.advance (options.withTrace false) program ≠ .running run := by
  rcases traced with ⟨machine, steps, tracedConsole⟩
  rcases real with ⟨realMachine, realSteps, realConsole⟩
  rcases abreast with ⟨sameMachine, sameSteps, tracedGood, realGood, zeros⟩
  cases sameMachine
  cases sameSteps
  cases here : program[machine.position]? with
  | none =>
    right
    rw [advance_of_none here, advance_of_none here, finish_eq, finish_eq,
      Console.conclude_fst_of_reliable tracedGood.reliable,
      Console.conclude_fst_of_reliable realGood.reliable]
    exact ⟨rfl, fun run goes => by cases goes⟩
  | some instruction =>
    cases room : exhaustedLimit ⟨machine, steps, tracedConsole⟩ (options.withTrace true) with
    | some limit =>
      right
      have realRoom :
          exhaustedLimit ⟨machine, steps, realConsole⟩ (options.withTrace false) = some limit :=
        room
      rw [advance_of_limit here tracedGood.calm.stopped room,
        advance_of_limit here realGood.calm.stopped realRoom]
      exact ⟨rfl, fun run goes => by cases goes⟩
    | none =>
      have realRoom :
          exhaustedLimit ⟨machine, steps, realConsole⟩ (options.withTrace false) = none := room
      rw [advance_of_traced here tracedGood.calm.stopped room rfl,
        advance_of_untraced here realGood.calm.stopped realRoom rfl]
      have kept := Console.law_undisturbed.supply realConsole options.mode options.prompt
        instruction machine.tape.current realGood
      rcases Console.supply_of_suppliesZeros realGood.reliable options.prompt zeros instruction
        machine.tape.current with ⟨value, after, answer, fewer, effect⟩
      rw [answer] at kept
      cases stepped : machine.step program instruction 0 with
      | error reason =>
        right
        have realStuck := (effect machine program).trans stepped
        have performed := @perform_of_stuck ⟨machine, steps, realConsole⟩
          (options.withTrace false) program instruction value after reason answer realStuck
        rw [trace_of_stuck stepped, performed]
        exact ⟨rfl, fun run goes => by cases goes⟩
      | ok next =>
        left
        have realStepped := (effect machine program).trans stepped
        rcases trace_of_undisturbed tracedGood stepped with ⟨tracedAfter, tracedKept, goes⟩
        exact ⟨⟨next, steps + 1, tracedAfter⟩, ⟨next, steps + 1, after⟩,
          ⟨rfl, rfl, tracedKept, kept, fewer⟩, goes, perform_of_ok answer realStepped⟩

/-- A traced run asks for no input, so none is refused. -/
theorem advance_ne_invalidInput (tracing : options.traced = true) (run : Run)
    (program : Program) (position : Nat) (mode : Mode) (final : Run) :
    run.advance options program ≠ .ended (.failed (.invalidInput position mode)) final := by
  intro refusal
  have outcome := outcome_advance run options program
  have notIntended {intended : Ending} {place : Nat} {answer : Except DeviceFailure Unit}
      (different : intended ≠ .failed (.invalidInput position mode)) :
      endingAfter place intended answer ≠ .failed (.invalidInput position mode) := by
    cases answer with
    | ok _ => exact different
    | error failure =>
      intro same
      cases same
  generalize run.advance options program = progress at outcome refusal
  cases outcome with
  | finished _ =>
    have same := (Progress.ended.inj refusal).1
    exact notIntended (fun absurdity => by cases absurdity) same
  | interrupted _ _ _ =>
    have same := (Progress.ended.inj refusal).1
    exact notIntended (fun absurdity => by cases absurdity) same
  | refused _ _ _ _ untraced _ =>
    rw [tracing] at untraced
    cases untraced
  | limited _ _ _ _ _ => cases refusal
  | performed _ _ _ _ _ _ _ _ => cases refusal
  | rowRefused _ _ _ _ _ _ _ _ => cases refusal
  | rowWritten _ _ _ _ _ _ _ => cases refusal
  | stuck _ _ _ _ _ _ _ _ => cases refusal
  | rowStuck _ _ _ _ _ => cases refusal

theorem ending_of_advance (tracing : options.traced = true) {run final : Run} {how : Ending}
    (good : run.console.Undisturbed) (ends : run.advance options program = .ended how final) :
    how = .completed ∨ ∃ limit, options.stepLimit = some limit ∧
      how = .failed (.stepLimit limit) := by
  have outcome := outcome_advance run options program
  generalize run.advance options program = progress at outcome ends
  cases outcome with
  | finished _ =>
    left
    rw [Console.conclude_fst_of_reliable good.reliable] at ends
    exact (Progress.ended.inj ends).1.symm
  | interrupted _ _ stopped =>
    rw [good.calm.stopped] at stopped
    cases stopped
  | limited _ limit _ _ reached =>
    right
    cases ends
    exact ⟨limit, (Option.filter_eq_some_iff.mp reached).1, rfl⟩
  | refused _ _ _ _ untraced _ =>
    rw [tracing] at untraced
    cases untraced
  | rowRefused instruction _ _ machine _ _ _ answer =>
    have accepted := Console.write_fst_of_reliable good.reliable
      (run.rowText options instruction machine)
    rw [answer] at accepted
    cases accepted
  | performed _ _ _ _ _ _ _ _ => cases ends
  | rowWritten _ _ _ _ _ _ _ => cases ends
  | stuck _ _ _ _ _ _ _ _ => cases ends
  | rowStuck _ _ _ _ _ => cases ends

end Run

namespace Progress

variable {options : Options} {program : Program}

/-- Two runs that are at the same place, one of them over, stay there. -/
theorem bare_iterate_of_over {first second : Options} {traced real : Progress}
    (alike : traced.bare = real.bare) (ends : ∀ run, real ≠ running run) (count : Nat) :
    (iterate first program count traced).bare = (iterate second program count real).bare := by
  cases real with
  | running run => exact absurd rfl (ends run)
  | ended how run =>
    cases traced with
    | ended how' run' => simpa using alike
    | running run' => cases alike
    | stuck why run' => cases alike
  | stuck why run =>
    cases traced with
    | stuck why' run' => simpa using alike
    | running run' => cases alike
    | ended how run' => cases alike

/-- What a whole run preserves: two runs that start abreast are at the same
place after every number of instructions that the zeros suffice for. -/
theorem bare_iterate {count : Nat} {traced real : Run}
    (abreast : Run.Abreast options.mode count traced real) :
    (iterate (options.withTrace true) program count (running traced)).bare =
      (iterate (options.withTrace false) program count (running real)).bare := by
  induction count generalizing traced real with
  | zero =>
    rcases traced with ⟨machine, steps, tracedConsole⟩
    rcases real with ⟨realMachine, realSteps, realConsole⟩
    cases abreast.machine
    cases abreast.steps
    rfl
  | succ count ih =>
    simp only [iterate]
    rcases Run.abreast_advance abreast with
      ⟨tracedNext, realNext, still, tracedGoes, realGoes⟩ | ⟨alike, ends⟩
    · rw [tracedGoes, realGoes]
      exact ih still
    · exact bare_iterate_of_over alike ends count

/-- A traced run refuses no input, for it asks for none. -/
theorem iterate_ne_invalidInput (traced : options.traced = true) (count : Nat)
    {progress : Progress} (position : Nat) (mode : Mode)
    (start : ∀ final, progress ≠ ended (.failed (.invalidInput position mode)) final) :
    ∀ final, iterate options program count progress ≠
      ended (.failed (.invalidInput position mode)) final := by
  rw [← iterateAmid_silent]
  apply iterateAmid_preserves options program .silent
    (motive := fun reached => ∀ final,
      reached ≠ ended (.failed (.invalidInput position mode)) final) _ count start
  intro run _ final
  exact Run.advance_ne_invalidInput traced _ program position mode final

/-- If nothing fails and nobody interferes, a traced run ends by itself or
at its limit. -/
theorem ending_of_iterate (traced : options.traced = true) {count : Nat} {run final : Run}
    {how : Ending} (good : run.console.Undisturbed)
    (ends : iterate options program count (running run) = ended how final) :
    how = .completed ∨ ∃ limit, options.stepLimit = some limit ∧
      how = .failed (.stepLimit limit) := by
  induction count generalizing run with
  | zero => cases ends
  | succ count ih =>
    simp only [iterate] at ends
    cases next : run.advance options program with
    | running after =>
      rw [next] at ends
      exact ih (Console.law_undisturbed.of_advance good next) ends
    | ended how' final' =>
      rw [next, iterate_ended] at ends
      cases ends
      exact Run.ending_of_advance traced good next
    | stuck why final' =>
      rw [next, iterate_stuck] at ends
      cases ends

end Progress

namespace Program

open InputScript (SuppliesZeros zeros)

variable (program : Program) (options : Options) (tape : Tape)

/-- The header is always written if nothing is wrong with the console. -/
theorem begin_of_undisturbed {options : Options} (tracing : options.traced = true)
    {console : Console} (good : console.Undisturbed) :
    ∃ after : Console, after.Undisturbed ∧
      Run.begin options tape console = .running ⟨.load tape, 0, after⟩ := by
  have fresh := Console.law_undisturbed.recount console 0 good
  have written := Console.write_fst_of_reliable fresh.reliable Trace.header
  have kept := Console.law_undisturbed.write _ Trace.header fresh
  exact ⟨_, kept, Run.begin_of_ok tracing (Prod.ext written rfl)⟩

/-- With zeros for every instruction of its budget, a real run comes to where
the traced run comes. -/
theorem bare_execute {tracedConsole realConsole : Console} {budget : Nat}
    (tracedGood : tracedConsole.Undisturbed) (realGood : realConsole.Undisturbed)
    (supplied : realConsole.input.SuppliesZeros options.mode budget) :
    (program.execute (options.withTrace true) tape tracedConsole budget).bare =
      (program.execute (options.withTrace false) tape realConsole budget).bare := by
  rcases begin_of_undisturbed tape (rfl : (options.withTrace true).traced = true) tracedGood with
    ⟨after, kept, tracedBegins⟩
  have realKept := Console.law_undisturbed.recount realConsole 0 realGood
  have realBegins := @Run.begin_of_untraced (options.withTrace false) tape realConsole rfl
  rw [execute, execute, tracedBegins, realBegins]
  exact Progress.bare_iterate ⟨rfl, rfl, kept, realKept, supplied⟩

/-- If nothing fails and nobody interferes, a traced run is completed or
reaches its limit. -/
theorem ending_of_traced {options : Options} (tracing : options.traced = true)
    {console : Console} (good : console.Undisturbed) {budget : Nat} {how : Ending} {final : Run}
    (ends : program.execute options tape console budget = .ended how final) :
    how = .completed ∨
      ∃ limit, options.stepLimit = some limit ∧ how = .failed (.stepLimit limit) := by
  rcases begin_of_undisturbed tape tracing good with ⟨after, kept, begins⟩
  rw [execute, begins] at ends
  exact Progress.ending_of_iterate tracing kept ends

/-- A verdict is reached within its number of instructions and one more, and
it stands. -/
theorem verdict?_of_le {console : Console} {budget steps : Nat} {how : Ending} {final : Tape}
    (ends : (program.execute options tape console budget).verdict? = some (how, steps, final))
    {enough : Nat} (room : steps < enough) :
    (program.execute options tape console enough).verdict? = some (how, steps, final) := by
  rw [execute] at ends ⊢
  cases began : Run.begin options tape console with
  | running start =>
    rw [began] at ends
    rcases Progress.exists_ended_of_verdict? ends with ⟨run, reached, rfl, rfl⟩
    rcases Progress.iterate_of_ended reached with ⟨_, soon⟩
    have parts : enough =
        run.steps - start.steps + 1 + (enough - (run.steps - start.steps + 1)) := by omega
    rw [parts, Progress.iterate_add, soon, Progress.iterate_ended]
    rfl
  | ended how' run =>
    rw [began, Progress.iterate_ended] at ends
    rw [Progress.iterate_ended]
    exact ends
  | stuck why run =>
    rw [began, Progress.iterate_stuck] at ends
    cases ends

/-- A verdict of a traced run is one that the real run reaches with every
long enough supply of zeros. -/
theorem verdict?_traced_iff {tracedConsole realConsole : Console} {how : Ending} {steps : Nat}
    {final : Tape} (tracedGood : tracedConsole.Undisturbed)
    (realGood : realConsole.Undisturbed) :
    (∃ budget, (program.execute (options.withTrace true) tape tracedConsole budget).verdict? =
      some (how, steps, final)) ↔
    ∃ enough, ∀ count, enough ≤ count →
      ∃ budget, (program.execute (options.withTrace false) tape
        { realConsole with input := zeros options.mode count } budget).verdict? =
          some (how, steps, final) := by
  have alike {budget count : Nat} (enough : budget ≤ count) :=
    Progress.verdict?_of_bare_eq (bare_execute program options tape tracedGood
      (realGood.withInput (zeros options.mode count))
      (InputScript.suppliesZeros_of_le enough (InputScript.suppliesZeros_zeros options.mode count)))
  constructor
  · rintro ⟨budget, ends⟩
    refine ⟨budget, fun count enough => ⟨budget, ?_⟩⟩
    rw [← alike enough]
    exact ends
  · rintro ⟨enough, every⟩
    -- A supply that outlasts the verdict has not run out when it is reached.
    rcases every (enough + (steps + 1)) (Nat.le_add_right _ _) with ⟨budget, ends⟩
    refine ⟨steps + 1, ?_⟩
    rw [alike (Nat.le_add_left (steps + 1) enough)]
    exact verdict?_of_le program (options.withTrace false) tape ends (Nat.lt_succ_self steps)

/-- What a traced run never does, on whatever console. -/
theorem traced_untouched {options : Options} (tracing : options.traced = true)
    (console : Console) (budget : Nat) :
    (program.execute options tape console budget).run.console.input = console.input ∧
      (program.execute options tape console budget).run.console.prompts = console.prompts ∧
      ∀ position mode final, program.execute options tape console budget ≠
        .ended (.failed (.invalidInput position mode)) final := by
  have reading : options.traced = false → Console.Law fun before after =>
      after.input = before.input ∧ after.prompts = before.prompts := by
    intro untraced
    rw [tracing] at untraced
    cases untraced
  have begun := Run.keeps_begin Console.law_untouched options tape console
  have kept := Progress.keeps_iterate Console.law_untouched reading program budget
    (Run.begin options tape console)
  rcases Console.law_untouched.trans begun kept with ⟨input, prompts⟩
  refine ⟨input, prompts, ?_⟩
  intro position mode
  apply Progress.iterate_ne_invalidInput tracing budget position mode
  apply Run.begin_cases (motive := fun progress => ∀ final : Run,
    progress ≠ .ended (.failed (.invalidInput position mode)) final) options tape console
  · intro _ final absurdity
    cases absurdity
  · intro failure after _ _ final absurdity
    cases absurdity
  · intro after _ _ final absurdity
    cases absurdity

/-- A traced run follows the real run that reads zero from every record.
Where nothing fails and nobody interferes, they are at the same place after
each number of instructions.  So one ends if and only if the other does on
an endless supply of zeros, and then with the same verdict, which is that
the program was completed or that the limit was reached.  On no console does
a traced run read, prompt, or refuse input. -/
theorem traced_iff_real_on_zeros :
    (∀ tracedConsole realConsole : Console,
      tracedConsole.Undisturbed → realConsole.Undisturbed →
      (∀ budget (script : InputScript), script.SuppliesZeros options.mode budget →
        (program.execute (options.withTrace true) tape tracedConsole budget).bare =
          (program.execute (options.withTrace false) tape
            { realConsole with input := script } budget).bare) ∧
      (∀ verdict,
        (∃ budget, (program.execute (options.withTrace true) tape tracedConsole budget).verdict? =
          some verdict) ↔
        ∃ enough, ∀ count, enough ≤ count →
          ∃ budget, (program.execute (options.withTrace false) tape
            { realConsole with input := zeros options.mode count } budget).verdict? =
              some verdict) ∧
      ∀ budget how steps final,
        (program.execute (options.withTrace true) tape tracedConsole budget).verdict? =
          some (how, steps, final) →
        how = .completed ∨
          ∃ limit, options.stepLimit = some limit ∧ how = .failed (.stepLimit limit)) ∧
    ∀ (console : Console) budget,
      (program.execute (options.withTrace true) tape console budget).run.console.input =
          console.input ∧
        (program.execute (options.withTrace true) tape console budget).run.console.prompts =
          console.prompts ∧
        ∀ position mode final, program.execute (options.withTrace true) tape console budget ≠
          .ended (.failed (.invalidInput position mode)) final := by
  constructor
  · intro tracedConsole realConsole tracedGood realGood
    refine ⟨?_, ?_, ?_⟩
    · intro budget script supplied
      exact bare_execute program options tape tracedGood (realGood.withInput script) supplied
    · rintro ⟨how, steps, final⟩
      exact verdict?_traced_iff program options tape tracedGood realGood
    · intro budget how steps final ends
      rcases Progress.exists_ended_of_verdict? ends with ⟨run, reached, _, _⟩
      exact @ending_of_traced program tape (options.withTrace true) rfl _ tracedGood _ _ _ reached
  · intro console budget
    exact traced_untouched program tape rfl console budget

/-- The loop reads once, and a line that does not denote zero stays unread. -/
theorem traced_on_unread_line :
    ∃ program final, parse "+[,]" = .ok program ∧
      ({ input := .ofBytes [55, 10] } : Console).Undisturbed ∧
      (program.execute (({ mode := .numeric } : Options).withTrace true) ⟨#[0], 0, by decide⟩
        { input := .ofBytes [55, 10] } 5).verdict? = some (.completed, 4, final) ∧
      (∃ enough, ∀ count, enough ≤ count →
        ∃ budget, (program.execute (({ mode := .numeric } : Options).withTrace false)
          ⟨#[0], 0, by decide⟩ { input := zeros .numeric count } budget).verdict? =
            some (.completed, 4, final)) ∧
      final.current = 0 ∧
      (program.execute (({ mode := .numeric } : Options).withTrace true) ⟨#[0], 0, by decide⟩
        { input := .ofBytes [55, 10] } 5).run.console.input = .ofBytes [55, 10] := by
  have read : parse "+[,]" =
      .ok #[.command .increment, .loopStart, .command .input, .loopEnd] := rfl
  have quiet (script : InputScript) : ({ input := script } : Console).Undisturbed :=
    ⟨⟨rfl, rfl⟩, ⟨rfl, rfl⟩⟩
  have law := traced_iff_real_on_zeros
    #[.command .increment, .loopStart, .command .input, .loopEnd] { mode := .numeric }
    ⟨#[0], 0, by decide⟩
  have follows := law.1 { input := .ofBytes [55, 10] } {} (quiet _) (quiet _)
  have unread := law.2 { input := .ofBytes [55, 10] } 5
  have real : (execute #[.command .increment, .loopStart, .command .input, .loopEnd]
      (({ mode := .numeric } : Options).withTrace false) ⟨#[0], 0, by decide⟩
      { input := zeros .numeric 5 } 5).verdict? =
        some (.completed, 4, ⟨#[0], 0, by decide⟩) := rfl
  have alike := follows.1 5 (zeros .numeric 5) (InputScript.suppliesZeros_zeros .numeric 5)
  have ends := (Progress.verdict?_of_bare_eq alike).trans real
  have same := (follows.2.1 (.completed, 4, ⟨#[0], 0, by decide⟩)).mp ⟨5, ends⟩
  exact ⟨_, ⟨#[0], 0, by decide⟩, read, quiet _, ends, same, rfl, unread.1⟩

end Program
end RingTape
