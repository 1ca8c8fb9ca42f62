import RingTape.Proofs.Advance
import RingTape.Proofs.Nesting
import RingTape.Proofs.Parsing
import RingTape.Signals

namespace RingTape

/-!
# The open loops of a run

A run keeps its own record of the loops it has entered.  It puts a loop
there when it enters it, leaves it there when it goes back, and takes it
away when it leaves; a loop that is skipped never gets there.  In a balanced
program this record is at every moment the stack that reading the program up
to the current position would have left, whatever way the run has come.

So nothing that a run looks for can be missing: the end of a loop that is to
be skipped, and the beginning of one that is to be repeated.
-/

/-- A machine that stands inside a program with exactly the loops open that
are open in front of its position. -/
structure Machine.Nested (program : Program) (machine : Machine) : Prop where
  inside : machine.position ≤ program.size
  record : machine.openLoops = program.openAfter machine.position

/-- A run whose machine is nested and which has not come to a bracket
without a partner.  If it has completed, it stands at the end. -/
def Progress.Nested (program : Program) : Progress → Prop
  | .running run => run.machine.Nested program
  | .ended how run =>
    run.machine.Nested program ∧ (how = .completed → run.machine.position = program.size)
  | .stuck _ _ => False

namespace Machine

variable {program : Program} {machine : Machine}

theorem nested_load (program : Program) (tape : Tape) : (load tape).Nested program :=
  ⟨Nat.zero_le program.size, rfl⟩

theorem lt_size_of_getElem? {position : Nat} {instruction : Instruction}
    (here : program[position]? = some instruction) : position < program.size :=
  (Array.getElem?_eq_some_iff.mp here).1

/-- A skipped loop leaves the record as it was. -/
theorem nested_skip (nested : machine.Nested program)
    (here : program[machine.position]? = some .loopStart) {close : Nat}
    (found : program.matchingEnd? machine.position = some close) :
    Nested program { machine with position := close + 1 } := by
  have stack : program.openAfter (machine.position + 1) =
      [] ++ machine.position :: program.openAfter machine.position :=
    Program.openAfter_succ_loopStart here
  rcases Program.openAfter_of_closingFrom found stack rfl with ⟨ending, open_⟩
  constructor
  · exact lt_size_of_getElem? ending
  · change machine.openLoops = program.openAfter (close + 1)
    rw [Program.openAfter_succ_loopEnd ending, open_, List.tail_cons]
    exact nested.record

/-- What an instruction makes of a nested machine is nested, and there is
always something that it makes of it. -/
theorem exists_step_nested (balanced : Program.Balanced program.toList)
    (nested : machine.Nested program) {instruction : Instruction}
    (here : program[machine.position]? = some instruction) (supplied : UInt8) :
    ∃ next, machine.step program instruction supplied = .ok next ∧ next.Nested program := by
  have within := lt_size_of_getElem? here
  cases instruction with
  | command action =>
    refine ⟨{ machine with
      position := machine.position + 1, tape := machine.tape.apply action supplied },
      rfl, within, ?_⟩
    exact nested.record.trans (Program.openAfter_succ_command here).symm
  | loopStart =>
    by_cases zero : machine.tape.current = 0
    · rcases Program.exists_matchingEnd? balanced here with ⟨close, found, _⟩
      refine ⟨_, ?_, nested_skip nested here found⟩
      simp only [step, zero, if_true, found]
    · refine ⟨{ machine with
        position := machine.position + 1, openLoops := machine.position :: machine.openLoops },
        by simp only [step, zero, if_false], within, ?_⟩
      change machine.position :: machine.openLoops = program.openAfter (machine.position + 1)
      rw [Program.openAfter_succ_loopStart here, nested.record]
  | loopEnd =>
    by_cases zero : machine.tape.current = 0
    · refine ⟨{ machine with
        position := machine.position + 1, openLoops := machine.openLoops.tail },
        by simp only [step, zero, if_true], within, ?_⟩
      change machine.openLoops.tail = program.openAfter (machine.position + 1)
      rw [Program.openAfter_succ_loopEnd here, nested.record]
    · rcases Program.exists_openAfter_of_loopEnd balanced here with ⟨start, opening, _, stack⟩
      have record : machine.openLoops = start :: program.openAfter start :=
        nested.record.trans stack
      refine ⟨{ machine with position := start + 1 }, ?_, lt_size_of_getElem? opening, ?_⟩
      · simp only [step, zero, if_false, record]
      · change machine.openLoops = program.openAfter (start + 1)
        rw [Program.openAfter_succ_loopStart opening, record]

theorem nested_of_step (balanced : Program.Balanced program.toList)
    (nested : machine.Nested program) {instruction : Instruction} {supplied : UInt8}
    {next : Machine} (here : program[machine.position]? = some instruction)
    (stepped : machine.step program instruction supplied = .ok next) : next.Nested program := by
  rcases exists_step_nested balanced nested here supplied with ⟨reached, same, kept⟩
  rw [stepped] at same
  cases same
  exact kept

theorem not_stuck (balanced : Program.Balanced program.toList)
    (nested : machine.Nested program) {instruction : Instruction} {supplied : UInt8}
    {reason : Stuck} (here : program[machine.position]? = some instruction)
    (stuck : machine.step program instruction supplied = .error reason) : False := by
  rcases exists_step_nested balanced nested here supplied with ⟨next, stepped, _⟩
  rw [stepped] at stuck
  cases stuck

end Machine

namespace Run

variable {program : Program} {run : Run}

/-- What one step preserves. -/
theorem nested_advance (balanced : Program.Balanced program.toList) (options : Options)
    (nested : run.machine.Nested program) : (run.advance options program).Nested program := by
  have outcome := outcome_advance run options program
  generalize run.advance options program = progress at outcome
  cases outcome with
  | finished past =>
    refine ⟨nested, fun _ => ?_⟩
    exact Nat.le_antisymm nested.inside (Array.getElem?_eq_none_iff.mp past)
  | interrupted _ _ _ =>
    refine ⟨nested, fun completed => absurd completed ?_⟩
    exact endingAfter_ne (by nofun) (by nofun) _
  | limited _ _ _ _ _ => exact ⟨nested, fun impossible => by cases impossible⟩
  | refused _ _ _ _ _ _ => exact ⟨nested, fun impossible => by cases impossible⟩
  | performed _ supplied _ machine here _ _ stepped =>
    exact Machine.nested_of_step balanced nested here stepped
  | rowRefused _ _ _ machine here _ stepped _ =>
    exact ⟨Machine.nested_of_step balanced nested here stepped,
      fun impossible => by cases impossible⟩
  | rowWritten _ _ machine here _ stepped _ =>
    exact Machine.nested_of_step balanced nested here stepped
  | stuck _ supplied _ reason here _ _ stuck =>
    exact Machine.not_stuck balanced nested here stuck
  | rowStuck _ reason here _ stuck => exact Machine.not_stuck balanced nested here stuck

theorem nested_begin (program : Program) (options : Options) (tape : Tape) (console : Console) :
    (begin options tape console).Nested program := by
  have start := Machine.nested_load program tape
  apply begin_cases
  · intro _
    exact start
  · intro failure after _ _
    exact ⟨start, fun impossible => by cases impossible⟩
  · intro after _ _
    exact start

end Run

namespace Program

variable {program : Program}

/-- What a whole run preserves, whoever raises the stop flag meanwhile. -/
theorem nested_executeAmid (balanced : Balanced program.toList) (options : Options)
    (tape : Tape) (console : Console) (signals : Signals) (budget : Nat) :
    (program.executeAmid options tape console signals budget).Nested program := by
  refine Progress.iterateAmid_preserves options program signals ?_ budget
    (Run.nested_begin program options tape console)
  intro run nested
  exact Run.nested_advance balanced options (Run.machine_signalled run signals ▸ nested)

theorem inside_of_executeAmid (balanced : Balanced program.toList) {options : Options}
    {tape : Tape} {console : Console} {signals : Signals} {budget : Nat} {run : Run}
    (goes : program.executeAmid options tape console signals budget = .running run) :
    run.machine.position ≤ program.size := by
  have nested := nested_executeAmid balanced options tape console signals budget
  rw [goes] at nested
  exact nested.inside

theorem executeAmid_ne_stuck (balanced : Balanced program.toList) (options : Options)
    (tape : Tape) (console : Console) (signals : Signals) (budget : Nat) (reason : Stuck)
    (run : Run) : program.executeAmid options tape console signals budget ≠ .stuck reason run := by
  intro stuck
  have nested := nested_executeAmid balanced options tape console signals budget
  rw [stuck] at nested
  exact nested

/-- A run that goes back from the end of a loop goes to the one bracket that
this end belongs to. -/
theorem exists_start_of_repeat (balanced : Balanced program.toList) (options : Options)
    (signals : Signals) {run : Run} (nested : run.machine.Nested program)
    (ending : program[run.machine.position]? = some .loopEnd)
    (repeats : run.machine.tape.current ≠ 0) :
    ∃ start, (∀ other, program[other]? = some .loopStart ∧
        program.matchingEnd? other = some run.machine.position ↔ other = start) ∧
      ∀ next, (run.signalled signals).advance options program = .running next →
        next.machine = { run.machine with position := start + 1 } := by
  rcases exists_openAfter_of_loopEnd balanced ending with ⟨start, opening, found, stack⟩
  refine ⟨start, fun other => ⟨?_, ?_⟩, ?_⟩
  · rintro ⟨otherOpening, otherFound⟩
    exact eq_of_matchingEnd? otherOpening opening otherFound found
  · intro same
    subst same
    exact ⟨opening, found⟩
  · intro next goes
    rcases Run.advance_eq_running goes with ⟨instruction, supplied, here, stepped, _⟩
    rw [Run.machine_signalled] at here stepped
    rw [ending] at here
    cases here
    have record : run.machine.openLoops = start :: program.openAfter start :=
      nested.record.trans stack
    rw [Machine.step, if_neg repeats, record] at stepped
    change next.machine = ⟨start + 1, run.machine.openLoops, run.machine.tape⟩
    rw [record]
    exact (Except.ok.inj stepped).symm

/-- The record of open loops is exact at every moment of every run.  It
lists the loops around the current position, so it is never higher than the
loops of the program are nested, it is empty in the end, and going back from
the end of a loop leads to the bracket which that end belongs to.  Nothing
that a run looks for is missing, and no search leaves the program. -/
theorem openLoops_of_executeAmid {source : String} (read : parse source = .ok program)
    (options : Options) (tape : Tape) (console : Console) (signals : Signals) (budget : Nat) :
    (∀ run, program.executeAmid options tape console signals budget = .running run →
      run.machine.position ≤ program.size ∧
      run.machine.openLoops.reverse = program.loopsAround run.machine.position ∧
      run.machine.openLoops.length ≤ program.nestingDepth ∧
      (program[run.machine.position]? = some .loopEnd → run.machine.tape.current ≠ 0 →
        ∃ start, (∀ other, program[other]? = some .loopStart ∧
            program.matchingEnd? other = some run.machine.position ↔ other = start) ∧
          ∀ next,
            program.executeAmid options tape console signals (budget + 1) = .running next →
              next.machine = { run.machine with position := start + 1 })) ∧
    (∀ reason run,
      program.executeAmid options tape console signals budget ≠ .stuck reason run) ∧
    (∀ run, program.executeAmid options tape console signals budget = .ended .completed run →
      run.machine.openLoops = []) ∧
    (∀ start, program[start]? = some .loopStart →
      ∃ close, program.matchingEnd? start = some close ∧ close < program.size) := by
  have balanced := balanced_of_parse read
  have nested := nested_executeAmid balanced options tape console signals budget
  refine ⟨?_, executeAmid_ne_stuck balanced options tape console signals budget, ?_, ?_⟩
  · intro run reached
    rw [reached] at nested
    have standing : run.machine.Nested program := nested
    refine ⟨standing.inside, ?_, ?_, ?_⟩
    · rw [standing.record, reverse_openAfter balanced]
    · rw [standing.record, length_openAfter balanced]
      exact depthAt_le_nestingDepth standing.inside
    · intro ending repeats
      rcases exists_start_of_repeat balanced options signals standing ending repeats with
        ⟨start, unique, leads⟩
      refine ⟨start, unique, fun next goes => leads next ?_⟩
      rw [executeAmid_succ, reached] at goes
      exact goes
  · intro run completed
    rw [completed] at nested
    rw [nested.1.record, nested.2 rfl]
    exact openAfter_of_size_le balanced (Nat.le_refl program.size)
  · intro start opening
    exact exists_matchingEnd? balanced opening

/-- At the end of the inner one of two loops, about to go back. -/
theorem openLoops_at_inner_end :
    ∃ program run, parse "[>+[-]<-]" = .ok program ∧
      program.executeAmid {} ⟨#[1, 1], 0, by decide⟩ {} .silent 5 = .running run ∧
      run.machine.position = 5 ∧ run.machine.openLoops = [3, 0] ∧
      program.loopsAround 5 = [0, 3] ∧ 2 ≤ program.nestingDepth ∧
      ∃ start, program.matchingEnd? start = some 5 ∧ ∀ next,
        program.executeAmid {} ⟨#[1, 1], 0, by decide⟩ {} .silent 6 = .running next →
          next.machine = { run.machine with position := start + 1 } := by
  have read : parse "[>+[-]<-]" = .ok #[.loopStart, .command .moveRight, .command .increment,
      .loopStart, .command .decrement, .loopEnd, .command .moveLeft, .command .decrement,
      .loopEnd] := rfl
  rcases (openLoops_of_executeAmid read {} ⟨#[1, 1], 0, by decide⟩ {} .silent 5).1 _ rfl with
    ⟨_, around, height, repeats⟩
  rcases repeats rfl (by decide) with ⟨start, unique, leads⟩
  exact ⟨_, _, read, rfl, rfl, rfl, around.symm, height, start,
    ((unique start).mpr rfl).2, leads⟩

end Program
end RingTape
