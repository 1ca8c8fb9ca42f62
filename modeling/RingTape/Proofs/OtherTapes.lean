import RingTape.Proofs.Writing

namespace RingTape

/-!
# Runs on other tapes

A change of the tape may be such that an instruction does not notice it: the
current cell is the same, and it makes no difference whether the change comes
before the instruction or after it.  In a traced run the row of the
instruction has to be the same as well.  Then the whole step does not notice
the change (`Run.advance_onTape`), because a run looks at its tape in no
other way, and neither does a run whose steps are all of this kind
(`Program.executeAmid_onTape`).  A step that attempts no instruction does not
look at the tape at all (`Run.advance_onTape_of_idle`), so nothing has to be
known of it (`Program.executeAmid_onTape_of_attempts`).

The module begins with tapes as such: when two of them are the same, and what
a command leaves alone.
-/

namespace Tape

theorem current_eq (tape : Tape) : some tape.current = tape.cells[tape.pointer]? :=
  (Array.getElem?_eq_getElem tape.inside).symm

/-- Two tapes are the same if their pointers and their cells are. -/
theorem eq_of_cells {first second : Tape} (pointer : first.pointer = second.pointer)
    (size : first.cells.size = second.cells.size)
    (cells : ∀ index < first.cells.size, first.cells[index]? = second.cells[index]?) :
    first = second := by
  rcases first with ⟨firstCells, firstPointer, firstInside⟩
  rcases second with ⟨secondCells, secondPointer, secondInside⟩
  have same : firstCells = secondCells := by
    apply Array.ext_getElem?
    intro index
    by_cases inside : index < firstCells.size
    · exact cells index inside
    · have outside := Nat.le_of_not_lt inside
      rw [Array.getElem?_eq_none outside, Array.getElem?_eq_none (size ▸ outside)]
  subst same
  cases pointer
  rfl

theorem size_put (tape : Tape) (value : UInt8) :
    (tape.put value).cells.size = tape.cells.size :=
  Array.size_set tape.inside

/-- A command changes no cell but the current one. -/
theorem getElem?_apply_of_ne {tape : Tape} {index : Nat} (other : index ≠ tape.pointer)
    (action : Command) (supplied : UInt8) :
    (tape.apply action supplied).cells[index]? = tape.cells[index]? := by
  have stored (value : UInt8) : (tape.put value).cells[index]? = tape.cells[index]? := by
    simp only [put]
    rw [Array.getElem?_set, if_neg (Ne.symm other)]
  cases action with
  | moveLeft => rfl
  | moveRight => rfl
  | increment => exact stored _
  | decrement => exact stored _
  | output => rfl
  | input => exact stored supplied

end Tape

/-- What an instruction does to the tape: the brackets leave it alone. -/
theorem Machine.tape_of_step {machine next : Machine} {program : Program}
    {instruction : Instruction} {supplied : UInt8}
    (stepped : machine.step program instruction supplied = .ok next) :
    next.tape = match instruction with
      | .command action => machine.tape.apply action supplied
      | .loopStart | .loopEnd => machine.tape := by
  cases instruction with
  | command action =>
    cases stepped
    rfl
  | loopStart =>
    simp only [step] at stepped
    split at stepped
    · split at stepped <;> cases stepped
      rfl
    · cases stepped
      rfl
  | loopEnd =>
    simp only [step] at stepped
    split at stepped
    · cases stepped
      rfl
    · split at stepped <;> cases stepped
      rfl

/-- A machine with its tape changed. -/
def Machine.onTape (change : Tape → Tape) (machine : Machine) : Machine :=
  { machine with tape := change machine.tape }

/-- A run with its tape changed. -/
def Run.onTape (change : Tape → Tape) (run : Run) : Run :=
  { run with machine := run.machine.onTape change }

/-- A run with its tape changed, however far it has come. -/
def Progress.onTape (change : Tape → Tape) : Progress → Progress
  | running run => running (run.onTape change)
  | ended how run => ended how (run.onTape change)
  | stuck why run => stuck why (run.onTape change)

/-- All that comes of a change is another tape. -/
theorem Progress.onTape_eq (change : Tape → Tape) (progress : Progress) :
    progress.onTape change = progress.onTape fun _ => change progress.run.machine.tape := by
  cases progress <;> rfl

/-- An instruction on a tape does not notice a change of it. -/
structure Tape.Unnoticed (change : Tape → Tape) (tape : Tape) (instruction : Instruction) :
    Prop where
  current : (change tape).current = tape.current
  apply : ∀ action supplied, instruction = .command action →
    (change tape).apply action supplied = change (tape.apply action supplied)

/-- The effect of an instruction that does not notice the change. -/
theorem Machine.step_onTape {change : Tape → Tape} {machine : Machine}
    {instruction : Instruction} (unnoticed : machine.tape.Unnoticed change instruction)
    (program : Program) (supplied : UInt8) :
    (machine.onTape change).step program instruction supplied =
      (machine.step program instruction supplied).map (Machine.onTape change) := by
  rcases machine with ⟨position, openLoops, tape⟩
  have same : (change tape).current = tape.current := unnoticed.current
  cases instruction with
  | command action =>
    have moved : (change tape).apply action supplied = change (tape.apply action supplied) :=
      unnoticed.apply action supplied rfl
    simp only [step, onTape, moved]
    rfl
  | loopStart =>
    simp only [step, onTape, same]
    split
    · cases program.matchingEnd? position <;> rfl
    · rfl
  | loopEnd =>
    simp only [step, onTape, same]
    split
    · rfl
    · cases openLoops <;> rfl

namespace Run

variable {change : Tape → Tape} {run : Run} {options : Options} {program : Program}
  {instruction : Instruction}

/-- The next step does not notice a change of the tape. -/
structure Overlooks (change : Tape → Tape) (run : Run) (options : Options) (program : Program) :
    Prop where
  unnoticed : ∀ instruction, program[run.machine.position]? = some instruction →
    run.machine.tape.Unnoticed change instruction
  row : ∀ instruction machine, program[run.machine.position]? = some instruction →
    options.traced = true → run.machine.step program instruction 0 = .ok machine →
      (run.onTape change).rowText options instruction (machine.onTape change) =
        run.rowText options instruction machine

theorem perform_onTape (unnoticed : run.machine.tape.Unnoticed change instruction) :
    (run.onTape change).perform options program instruction =
      (run.perform options program instruction).onTape change := by
  have supplied : (run.onTape change).console.supply options.mode options.prompt instruction
        (run.onTape change).machine.tape.current =
      run.console.supply options.mode options.prompt instruction run.machine.tape.current :=
    congrArg (run.console.supply options.mode options.prompt instruction) unnoticed.current
  rcases answer : run.console.supply options.mode options.prompt instruction
    run.machine.tape.current with ⟨failure | value, after⟩
  · rw [answer] at supplied
    rw [perform_of_error answer, perform_of_error supplied]
    rfl
  · rw [answer] at supplied
    have moved := Machine.step_onTape unnoticed program value
    cases stepped : run.machine.step program instruction value with
    | error reason =>
      rw [stepped] at moved
      rw [perform_of_stuck answer stepped, perform_of_stuck supplied moved]
      rfl
    | ok machine =>
      rw [stepped] at moved
      rw [perform_of_ok answer stepped, perform_of_ok supplied moved]
      rfl

theorem trace_onTape (unnoticed : run.machine.tape.Unnoticed change instruction)
    (row : ∀ machine, run.machine.step program instruction 0 = .ok machine →
      (run.onTape change).rowText options instruction (machine.onTape change) =
        run.rowText options instruction machine) :
    (run.onTape change).trace options program instruction =
      (run.trace options program instruction).onTape change := by
  have moved := Machine.step_onTape unnoticed program 0
  cases stepped : run.machine.step program instruction 0 with
  | error reason =>
    rw [stepped] at moved
    rw [trace_of_stuck stepped, trace_of_stuck moved]
    rfl
  | ok machine =>
    rw [stepped] at moved
    have alike : (run.onTape change).console.write
          ((run.onTape change).rowText options instruction (machine.onTape change)) =
        run.console.write (run.rowText options instruction machine) :=
      congrArg run.console.write (row machine stepped)
    rcases answer : run.console.write (run.rowText options instruction machine) with
      ⟨failure | _, after⟩
    · rw [trace_of_error stepped answer, trace_of_error moved (alike.trans answer)]
      rfl
    · rw [trace_of_ok stepped answer, trace_of_ok moved (alike.trans answer)]
      rfl

/-- A row shows the pointer, and the current cell before the instruction and,
if the pointer has not moved, after it. -/
theorem rowText_onTape {machine : Machine}
    (pointer : ∀ tape, (change tape).pointer = tape.pointer)
    (current : ∀ tape : Tape, tape.pointer = run.machine.tape.pointer →
      (change tape).current = tape.current)
    (stepped : run.machine.step program instruction 0 = .ok machine) :
    (run.onTape change).rowText options instruction (machine.onTape change) =
      run.rowText options instruction machine := by
  have snapshot : Trace.Snapshot.ofMachine run.steps (run.machine.onTape change) =
      .ofMachine run.steps run.machine := by
    simp only [Trace.Snapshot.ofMachine, Machine.onTape, pointer, current run.machine.tape rfl]
  have action : Trace.Action.between (.ofMachine run.steps run.machine) instruction
        (machine.onTape change) =
      .between (.ofMachine run.steps run.machine) instruction machine := by
    have after := Machine.tape_of_step stepped
    cases instruction with
    | loopStart => rfl
    | loopEnd => rfl
    | command action =>
      have stays (rests : (run.machine.tape.apply action 0).pointer = run.machine.tape.pointer) :
          (change machine.tape).current = machine.tape.current := by
        refine current machine.tape ?_
        rw [after]
        exact rests
      cases action with
      | moveLeft => exact congrArg Trace.Action.moved (pointer machine.tape)
      | moveRight => exact congrArg Trace.Action.moved (pointer machine.tape)
      | increment => simp only [Trace.Action.between, Machine.onTape, stays rfl]
      | decrement => simp only [Trace.Action.between, Machine.onTape, stays rfl]
      | output => simp only [Trace.Action.between, Machine.onTape, stays rfl]
      | input => rfl
  simp only [rowText, Trace.Row.between, onTape, snapshot, action]

/-- A step that attempts no instruction never looks at the tape. -/
theorem advance_onTape_of_idle (change : Tape → Tape)
    (idle : run.attempts options program = false) :
    (run.onTape change).advance options program =
      (run.advance options program).onTape change := by
  cases here : program[run.machine.position]? with
  | none =>
    have there : program[(run.onTape change).machine.position]? = none := here
    rw [advance_of_none here, finish_eq, advance_of_none there, finish_eq]
    rfl
  | some instruction =>
    have there : program[(run.onTape change).machine.position]? = some instruction := here
    cases free : run.console.stopped with
    | true =>
      have raised : (run.onTape change).console.stopped = true := free
      rw [advance_of_stopped here free, interrupt_eq, advance_of_stopped there raised,
        interrupt_eq]
      rfl
    | false =>
      have down : (run.onTape change).console.stopped = false := free
      cases room : run.exhaustedLimit options with
      | some limit =>
        have full : (run.onTape change).exhaustedLimit options = some limit := room
        rw [advance_of_limit here free room, advance_of_limit there down full]
        rfl
      | none =>
        rw [attempts_iff.mpr ⟨⟨instruction, here⟩, free, room⟩] at idle
        cases idle

/-- A change that the next step does not notice passes through it. -/
theorem advance_onTape (overlooks : run.Overlooks change options program) :
    (run.onTape change).advance options program =
      (run.advance options program).onTape change := by
  cases tried : run.attempts options program with
  | false => exact advance_onTape_of_idle change tried
  | true =>
    have alsoTried : (run.onTape change).attempts options program = true := tried
    rcases attempts_iff.mp tried with ⟨⟨instruction, here⟩, _⟩
    have there : program[(run.onTape change).machine.position]? = some instruction := here
    have unnoticed := overlooks.unnoticed instruction here
    cases traced : options.traced with
    | true =>
      rw [advance_of_attempts_traced here tried traced,
        advance_of_attempts_traced there alsoTried traced]
      exact trace_onTape unnoticed fun machine => overlooks.row instruction machine here traced
    | false =>
      rw [advance_of_attempts_untraced here tried traced,
        advance_of_attempts_untraced there alsoTried traced]
      exact perform_onTape unnoticed

/-- The beginning of a run never looks at the tape. -/
theorem begin_onTape (change : Tape → Tape) (options : Options) (tape : Tape)
    (console : Console) :
    begin options (change tape) console = (begin options tape console).onTape change := by
  apply begin_cases (motive := fun progress =>
    begin options (change tape) console = progress.onTape change)
  · intro untraced
    exact begin_of_untraced untraced
  · intro failure after traced refused
    exact begin_of_error traced refused
  · intro after traced accepted
    exact begin_of_ok traced accepted

end Run

namespace Program

open Progress (running)

theorem onTape_ne_running {change : Tape → Tape} {progress : Progress}
    (stops : ∀ run, progress ≠ running run) (run : Run) :
    progress.onTape change ≠ running run := by
  cases progress with
  | running before => exact absurd rfl (stops before)
  | ended how final => intro impossible; cases impossible
  | stuck why final => intro impossible; cases impossible

/-- A change that no attempted instruction notices up to some moment passes
through the run up to that moment. -/
theorem executeAmid_onTape_of_attempts {change : Tape → Tape} {program : Program}
    {options : Options} {tape : Tape} {console : Console} {signals : Signals} {budget : Nat}
    (overlooks : ∀ count run, count < budget →
      program.executeAmid options tape console signals count = running run →
        (run.signalled signals).attempts options program = true →
          (run.signalled signals).Overlooks change options program) :
    program.executeAmid options (change tape) console signals budget =
      (program.executeAmid options tape console signals budget).onTape change := by
  induction budget with
  | zero => rw [executeAmid_zero, executeAmid_zero, Run.begin_onTape]
  | succ budget ih =>
    have abreast := ih fun count run less => overlooks count run (Nat.lt_succ_of_lt less)
    by_cases going : ∃ run, program.executeAmid options tape console signals budget = running run
    · rcases going with ⟨run, reached⟩
      have next : ((run.signalled signals).onTape change).advance options program =
          ((run.signalled signals).advance options program).onTape change := by
        cases tried : (run.signalled signals).attempts options program with
        | false => exact Run.advance_onTape_of_idle change tried
        | true =>
          exact Run.advance_onTape (overlooks budget run (Nat.lt_succ_self budget) reached tried)
      rw [reached] at abreast
      rw [executeAmid_succ_of_running abreast, executeAmid_succ_of_running reached]
      exact next
    · have stops := not_exists.mp going
      have alsoStops := @onTape_ne_running change _ stops
      rw [← abreast] at alsoStops
      rw [executeAmid_succ_of_over alsoStops, executeAmid_succ_of_over stops, abreast]

/-- A change that no step notices up to some moment passes through the run
up to that moment. -/
theorem executeAmid_onTape {change : Tape → Tape} {program : Program} {options : Options}
    {tape : Tape} {console : Console} {signals : Signals} {budget : Nat}
    (overlooks : ∀ count run, count < budget →
      program.executeAmid options tape console signals count = running run →
        (run.signalled signals).Overlooks change options program) :
    program.executeAmid options (change tape) console signals budget =
      (program.executeAmid options tape console signals budget).onTape change :=
  executeAmid_onTape_of_attempts fun count run less reached _ => overlooks count run less reached

end Program
end RingTape
