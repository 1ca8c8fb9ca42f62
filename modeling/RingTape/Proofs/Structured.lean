import RingTape.Proofs.Console
import RingTape.Proofs.Parsing
import RingTape.Proofs.Placement
import RingTape.Structured

namespace RingTape

/-!
# Runs and structured execution agree

A run of a program jumps between brackets; the evaluator of its tree runs
the body of a loop as long as the current cell is not zero.  The two reach
the same end or none.

The simulation relates the evaluation of a loop to two places of a run: the
opening bracket, with the loop not yet recorded as open, and the closing
one, with the loop on top of the record.  From either place one instruction
leads to the same machine.  Forward, an answer of the evaluator tells where
the run gets, by induction on the fuel.  Backward, a run that does not go on
forever leaves the evaluator something to answer, by induction on the number
of instructions; the answer itself is then settled by the forward direction,
because a run has only one end.
-/

/-- A run is neither traced nor limited. -/
structure Options.Unrestricted (options : Options) : Prop where
  untraced : options.traced = false
  unlimited : options.stepLimit = none

theorem Run.exhaustedLimit_of_unrestricted {options : Options}
    (unrestricted : options.Unrestricted) (run : Run) : run.exhaustedLimit options = none := by
  rw [exhaustedLimit, unrestricted.unlimited]
  rfl

theorem Run.advance_of_unrestricted {run : Run} {options : Options} {program : Program}
    {instruction : Instruction} (unrestricted : options.Unrestricted)
    (here : program[run.machine.position]? = some instruction)
    (free : run.console.stopped = false) :
    run.advance options program = run.perform options program instruction :=
  advance_of_untraced here free (exhaustedLimit_of_unrestricted unrestricted run)
    unrestricted.untraced

/-- A run at a position, with these open loops, in a given scene. -/
def Scene.runAt (scene : Scene) (position : Nat) (openLoops : List Nat) (steps : Nat) : Run :=
  ⟨⟨position, openLoops, scene.tape⟩, steps, scene.console⟩

namespace Tree

open Progress (running ended)

variable {options : Options} {program : Program} {body rest : Tree} {position : Nat}
  {openLoops : List Nat} {scene : Scene}

section Evaluation

/-- An answer that is found with some fuel is found with more. -/
theorem eval_of_le {fuel more : Nat} (enough : fuel ≤ more) {tree : Tree}
    {answer : Except RunError Unit × Scene}
    (found : eval options fuel tree position scene = some answer) :
    eval options more tree position scene = some answer := by
  induction fuel generalizing more tree position scene answer with
  | zero => cases found
  | succ fuel ih =>
    cases more with
    | zero => exact absurd enough (Nat.not_succ_le_zero fuel)
    | succ more =>
      have less : fuel ≤ more := Nat.le_of_succ_le_succ enough
      cases tree with
      | done => exact found
      | command action rest =>
        simp only [eval] at found ⊢
        rcases acted : act options position action scene with ⟨error | _, after⟩
        · rw [acted] at found
          exact found
        · rw [acted] at found
          exact ih less found
      | loop body rest =>
        simp only [eval] at found ⊢
        split at found
        · next zero =>
          rw [if_pos zero]
          exact ih less found
        · next nonzero =>
          rw [if_neg nonzero]
          cases inner : eval options fuel body (position + 1) scene with
          | none =>
            rw [inner] at found
            cases found
          | some first =>
            rw [inner] at found
            rw [ih less inner]
            rcases first with ⟨error | _, after⟩
            · exact found
            · exact ih less found

end Evaluation

section Steps

theorem calm_of_act_ok {action : Command} {after : Scene} (calm : scene.console.Unstoppable)
    (acted : act options position action scene = (.ok (), after)) :
    after.console.Unstoppable := by
  have kept := Console.law_unstoppable.supply scene.console options.mode options.prompt
    (.command action) scene.tape.current calm
  unfold act at acted
  rcases answer : scene.console.supply options.mode options.prompt (.command action)
    scene.tape.current with ⟨failure | supplied, console⟩
  · rw [answer] at acted
    cases failure <;> cases acted
  · rw [answer] at acted kept
    cases acted
    exact kept

variable (openLoops) (unrestricted : options.Unrestricted)
  (calm : scene.console.Unstoppable) (steps : Nat)
include unrestricted calm

theorem advance_runAt {instruction : Instruction} (here : program[position]? = some instruction) :
    (scene.runAt position openLoops steps).advance options program =
      (scene.runAt position openLoops steps).perform options program instruction :=
  Run.advance_of_unrestricted unrestricted here calm.stopped

theorem advance_of_act_ok {action : Command} {after : Scene}
    (here : program[position]? = some (.command action))
    (acted : act options position action scene = (.ok (), after)) :
    (scene.runAt position openLoops steps).advance options program =
      running (after.runAt (position + 1) openLoops (steps + 1)) := by
  rw [advance_runAt _ unrestricted calm steps here]
  unfold act at acted
  rcases answer : scene.console.supply options.mode options.prompt (.command action)
    scene.tape.current with ⟨failure | supplied, console⟩
  · rw [answer] at acted
    cases failure <;> cases acted
  · rw [answer] at acted
    cases acted
    exact Run.perform_of_ok answer rfl

theorem advance_of_act_error {action : Command} {after : Scene} {error : RunError}
    (here : program[position]? = some (.command action))
    (acted : act options position action scene = (.error error, after)) :
    (scene.runAt position openLoops steps).advance options program =
      ended (.failed error) (after.runAt position openLoops steps) := by
  rw [advance_runAt _ unrestricted calm steps here]
  unfold act at acted
  rcases answer : scene.console.supply options.mode options.prompt (.command action)
    scene.tape.current with ⟨failure | supplied, console⟩
  · rw [answer] at acted
    have performed := @Run.perform_of_error (scene.runAt position openLoops steps) options program
      (.command action) failure console answer
    cases failure <;> cases acted <;> exact performed
  · rw [answer] at acted
    cases acted

end Steps

/-- Where a run may stand, and with which loops recorded as open, when a
tree is to be evaluated next: in front of it, or, if it begins with a loop,
also at the end of that loop. -/
inductive Entrance (position : Nat) (openLoops : List Nat) : Tree → Nat → List Nat → Prop
  | front (tree : Tree) : Entrance position openLoops tree position openLoops
  | back (body rest : Tree) : Entrance position openLoops (loop body rest)
    (position + body.size + 1) (position :: openLoops)

section Brackets

variable (unrestricted : options.Unrestricted) (calm : scene.console.Unstoppable) (steps : Nat)
  (placed : (loop body rest).Placed program position)
  {place : Nat} {record : List Nat}
  (entrance : Entrance position openLoops (loop body rest) place record)
include unrestricted calm placed entrance

/-- From either bracket a loop is passed by if the current cell is zero. -/
theorem advance_of_zero (zero : scene.tape.current = 0) :
    (scene.runAt place record steps).advance options program =
      running (scene.runAt (position + body.size + 2) openLoops (steps + 1)) := by
  rcases placed_loop placed with ⟨opening, _, ending, _⟩
  cases entrance with
  | front =>
    rw [advance_runAt _ unrestricted calm steps opening]
    refine Run.perform_of_ok rfl ?_
    simp only [Scene.runAt, Machine.step, zero, if_true, matchingEnd?_of_placed placed]
  | back =>
    rw [advance_runAt _ unrestricted calm steps ending]
    refine Run.perform_of_ok rfl ?_
    simp only [Scene.runAt, Machine.step, zero, if_true, List.tail_cons]

/-- From either bracket a loop is entered if the current cell is not zero. -/
theorem advance_of_nonzero (nonzero : scene.tape.current ≠ 0) :
    (scene.runAt place record steps).advance options program =
      running (scene.runAt (position + 1) (position :: openLoops) (steps + 1)) := by
  rcases placed_loop placed with ⟨opening, _, ending, _⟩
  cases entrance with
  | front =>
    rw [advance_runAt _ unrestricted calm steps opening]
    refine Run.perform_of_ok rfl ?_
    simp only [Scene.runAt, Machine.step, nonzero, if_false]
  | back =>
    rw [advance_runAt _ unrestricted calm steps ending]
    refine Run.perform_of_ok rfl ?_
    simp only [Scene.runAt, Machine.step, nonzero, if_false]

end Brackets

/-- Where a run gets if this is what the evaluator answers for a tree that
ends at a position. -/
def Lands (position : Nat) (openLoops : List Nat) :
    Except RunError Unit × Scene → Progress → Prop
  | (.ok (), scene), progress => ∃ steps, progress = running (scene.runAt position openLoops steps)
  | (.error error, scene), progress =>
    ∃ place record steps, progress = ended (.failed error) (scene.runAt place record steps)

section Simulation

variable (unrestricted : options.Unrestricted)
include unrestricted

/-- Forward: a run gets where the evaluator says. -/
theorem exists_lands {fuel : Nat} {tree : Tree} {place : Nat} {record : List Nat}
    {answer : Except RunError Unit × Scene} (calm : scene.console.Unstoppable)
    (placed : tree.Placed program position)
    (entrance : Entrance position openLoops tree place record)
    (found : eval options fuel tree position scene = some answer) (steps : Nat) :
    ∃ count, Lands (position + tree.size) openLoops answer
      (Progress.iterate options program count (running (scene.runAt place record steps))) := by
  induction fuel generalizing tree position openLoops place record scene answer steps with
  | zero => cases found
  | succ fuel ih =>
    cases tree with
    | done =>
      cases entrance
      cases found
      exact ⟨0, steps, rfl⟩
    | command action rest =>
      cases entrance
      rcases placed_command placed with ⟨here, behind⟩
      simp only [eval] at found
      rcases acted : act options position action scene with ⟨error | _, after⟩
      · rw [acted] at found
        cases found
        refine ⟨1, position, openLoops, steps, ?_⟩
        rw [Progress.iterate, advance_of_act_error _ unrestricted calm steps here acted,
          Progress.iterate_ended]
      · rw [acted] at found
        have next := advance_of_act_ok openLoops unrestricted calm steps here acted
        have stillCalm := calm_of_act_ok calm acted
        rcases ih stillCalm behind (.front rest) found (steps + 1) with ⟨count, lands⟩
        refine ⟨count + 1, ?_⟩
        rw [Progress.iterate, next, size, ← Nat.add_assoc, Nat.add_right_comm]
        exact lands
    | loop body rest =>
      rcases placed_loop placed with ⟨_, inside, _, behind⟩
      have last : position + (loop body rest).size = position + body.size + 2 + rest.size := by
        simp only [size]
        omega
      rw [last]
      simp only [eval] at found
      split at found
      · next zero =>
        have next := advance_of_zero unrestricted calm steps placed entrance zero
        rcases ih calm behind (.front rest) found (steps + 1) with ⟨count, lands⟩
        refine ⟨count + 1, ?_⟩
        rw [Progress.iterate, next]
        exact lands
      · next nonzero =>
        have next := advance_of_nonzero unrestricted calm steps placed entrance nonzero
        cases inner : eval options fuel body (position + 1) scene with
        | none =>
          rw [inner] at found
          cases found
        | some first =>
          rw [inner] at found
          rcases ih calm inside (.front body) inner (steps + 1) with ⟨count, lands⟩
          rcases first with ⟨error | _, after⟩
          · cases found
            refine ⟨count + 1, ?_⟩
            rw [Progress.iterate, next]
            exact lands
          · rcases lands with ⟨reached, lands⟩
            have stillCalm : after.console.Unstoppable := calm.of_iterate lands
            have back : position + 1 + body.size = position + body.size + 1 := by omega
            rw [back] at lands
            rcases ih stillCalm placed (.back body rest) found reached with ⟨more, landsAgain⟩
            refine ⟨count + more + 1, ?_⟩
            rw [Progress.iterate, next, Progress.iterate_add, lands, ← last]
            exact landsAgain

/-- Backward: if a run does not go on forever, the evaluator has an answer. -/
theorem exists_eval {count : Nat} {tree : Tree} {place : Nat} {record : List Nat}
    (calm : scene.console.Unstoppable) (placed : tree.Placed program position)
    (entrance : Entrance position openLoops tree place record) (steps : Nat)
    (ends : ∀ run, Progress.iterate options program count
      (running (scene.runAt place record steps)) ≠ running run) :
    ∃ fuel answer, eval options fuel tree position scene = some answer := by
  induction count using Nat.strongRecOn
    generalizing tree position openLoops place record scene steps with
  | ind count ih =>
    cases count with
    | zero => exact absurd rfl (ends _)
    | succ count =>
      cases tree with
      | done => exact ⟨1, _, rfl⟩
      | command action rest =>
        cases entrance
        rcases placed_command placed with ⟨here, behind⟩
        rcases acted : act options position action scene with ⟨error | _, after⟩
        · exact ⟨1, (.error error, after), by simp only [eval, acted]⟩
        · have next := advance_of_act_ok openLoops unrestricted calm steps here acted
          have stillCalm := calm_of_act_ok calm acted
          rw [Progress.iterate, next] at ends
          rcases ih count (Nat.lt_succ_self count) stillCalm behind (.front rest) (steps + 1) ends
            with ⟨fuel, answer, found⟩
          exact ⟨fuel + 1, answer, by simpa only [eval, acted] using found⟩
      | loop body rest =>
        rcases placed_loop placed with ⟨_, inside, _, behind⟩
        by_cases zero : scene.tape.current = 0
        · rw [Progress.iterate, advance_of_zero unrestricted calm steps placed entrance zero] at ends
          rcases ih count (Nat.lt_succ_self count) calm behind (.front rest) (steps + 1) ends with
            ⟨fuel, answer, found⟩
          exact ⟨fuel + 1, answer, by simpa only [eval, zero, if_true] using found⟩
        · have next := advance_of_nonzero unrestricted calm steps placed entrance zero
          rw [Progress.iterate, next] at ends
          rcases ih count (Nat.lt_succ_self count) calm inside (.front body) (steps + 1) ends with
            ⟨fuel, ⟨error | _, after⟩, inner⟩
          · exact ⟨fuel + 1, (.error error, after), by simp only [eval, zero, if_false, inner]⟩
          · rcases exists_lands unrestricted calm inside (.front body) inner (steps + 1) with
              ⟨first, reached, lands⟩
            have back : position + 1 + body.size = position + body.size + 1 := by omega
            rw [back] at lands
            -- The body was run while the run was under way, so some of it is left.
            have within : first < count := by
              apply Nat.lt_of_not_le
              intro late
              exact Progress.ne_running_of_le late ends _ lands
            have left : first + (count - first) = count := by omega
            have stillCalm : after.console.Unstoppable := calm.of_iterate lands
            rw [← left, Progress.iterate_add, lands] at ends
            rcases ih (count - first) (by omega) stillCalm placed (.back body rest) reached ends with
              ⟨more, answer, again⟩
            refine ⟨max fuel more + 1, answer, ?_⟩
            simp only [eval, zero, if_false, eval_of_le (Nat.le_max_left fuel more) inner]
            exact eval_of_le (Nat.le_max_right fuel more) again

end Simulation

section Whole

variable {tree : Tree} {tape : Tape} {console : Console} {fuel : Nat}

/-- The scene in which a tree is evaluated on a tape and a console. -/
def opening (tape : Tape) (console : Console) : Scene :=
  ⟨tape, { console with emitted := 0 }⟩

theorem execute_of_none
    (evaluated : eval options fuel tree 0 (opening tape console) = none) :
    tree.execute options tape console fuel = none := by
  rw [opening] at evaluated
  simp only [execute, evaluated]

theorem execute_of_error {error : RunError} {final : Scene}
    (evaluated : eval options fuel tree 0 (opening tape console) = some (.error error, final)) :
    tree.execute options tape console fuel = some (.failed error, final) := by
  rw [opening] at evaluated
  simp only [execute, evaluated]

theorem execute_of_ok {final : Scene}
    (evaluated : eval options fuel tree 0 (opening tape console) = some (.ok (), final)) :
    tree.execute options tape console fuel =
      some (Run.endingAfter tree.size .completed final.console.conclude.1,
        ⟨final.tape, final.console.conclude.2⟩) := by
  rw [opening] at evaluated
  simp only [execute, evaluated]
  rcases final.console.conclude with ⟨failure | _, after⟩ <;> rfl

variable (unrestricted : options.Unrestricted) (written : tree.instructions = program.toList)
  (calm : console.Unstoppable)

include unrestricted in
theorem begin_eq_runAt :
    Run.begin options tape console = running ((opening tape console).runAt 0 [] 0) :=
  Run.begin_of_untraced unrestricted.untraced

include unrestricted written calm

/-- What the evaluator answers for a whole tree is how the run ends. -/
theorem exists_ended {how : Ending} {final : Scene}
    (found : tree.execute options tape console fuel = some (how, final)) :
    ∃ budget run, program.execute options tape console budget = ended how run ∧
      run.machine.tape = final.tape ∧ run.console = final.console := by
  have fresh : (opening tape console).console.Unstoppable := ⟨calm.stopped, calm.stopAfter⟩
  cases evaluated : eval options fuel tree 0 (opening tape console) with
  | none =>
    rw [execute_of_none evaluated] at found
    cases found
  | some answer =>
    rcases exists_lands unrestricted fresh (placed_zero written) (.front tree) evaluated 0 with
      ⟨count, lands⟩
    rw [← begin_eq_runAt unrestricted] at lands
    rcases answer with ⟨error | _, scene⟩
    · rw [execute_of_error evaluated] at found
      cases found
      rcases lands with ⟨place, record, steps, ends⟩
      exact ⟨count, _, ends, rfl, rfl⟩
    · rw [execute_of_ok evaluated] at found
      cases found
      rcases lands with ⟨steps, reached⟩
      have length : program.size = tree.size := by
        rw [← Array.length_toList, ← written, length_instructions]
      have past : program[tree.size]? = none := Array.getElem?_eq_none (Nat.le_of_eq length)
      rw [Nat.zero_add] at reached
      refine ⟨count + 1, { scene.runAt tree.size [] steps with
        console := scene.console.conclude.2 }, ?_, rfl, rfl⟩
      rw [Program.execute, Progress.iterate_add, reached]
      exact (Run.advance_of_none past).trans (Run.finish_eq _)

/-- If the run of a program does not go on forever, the evaluator has an
answer for its tree. -/
theorem exists_execute {budget : Nat}
    (ends : ∀ run, program.execute options tape console budget ≠ running run) :
    ∃ fuel answer, tree.execute options tape console fuel = some answer := by
  have fresh : (opening tape console).console.Unstoppable := ⟨calm.stopped, calm.stopAfter⟩
  rw [Program.execute, begin_eq_runAt unrestricted] at ends
  rcases exists_eval unrestricted fresh (placed_zero written) (.front tree) 0 ends with
    ⟨fuel, ⟨error | _, final⟩, evaluated⟩
  · exact ⟨fuel, _, execute_of_error evaluated⟩
  · exact ⟨fuel, _, execute_of_ok evaluated⟩

end Whole
end Tree

namespace Program

open Progress (running ended)

/-- Every program that was read is the written form of a tree, and a run of
it ends in a given way, with a given tape and console, exactly if evaluating
the tree does.  The run goes on forever exactly if the evaluator never finds
an answer. -/
theorem execute_iff_structured {source : String} {program : Program}
    (read : parse source = .ok program) :
    ∃ tree, Tree.ofInstructions? program.toList = some tree ∧
      tree.instructions = program.toList ∧
      ∀ (options : Options) (tape : Tape) (console : Console),
        options.Unrestricted → console.Unstoppable →
        (∀ how final,
          (∃ budget run, program.execute options tape console budget = ended how run ∧
              run.machine.tape = final.tape ∧ run.console = final.console) ↔
            ∃ fuel, tree.execute options tape console fuel = some (how, final)) ∧
        ((∀ budget, ∃ run, program.execute options tape console budget = running run) ↔
          ∀ fuel, tree.execute options tape console fuel = none) := by
  rcases Tree.exists_ofInstructions? (balanced_of_parse read) with ⟨tree, gathered, written⟩
  refine ⟨tree, gathered, written, ?_⟩
  intro options tape console unrestricted calm
  constructor
  · intro how final
    constructor
    · rintro ⟨budget, run, ends, sameTape, sameConsole⟩
      have notRunning : ∀ run, program.execute options tape console budget ≠ running run := by
        intro run goes
        rw [ends] at goes
        cases goes
      rcases Tree.exists_execute unrestricted written calm notRunning with
        ⟨fuel, ⟨how', final'⟩, found⟩
      rcases Tree.exists_ended unrestricted written calm found with
        ⟨budget', run', ends', sameTape', sameConsole'⟩
      rcases Progress.ended_unique ends ends' with ⟨rfl, rfl⟩
      rcases final with ⟨finalTape, finalConsole⟩
      rcases final' with ⟨finalTape', finalConsole'⟩
      cases sameTape.symm.trans sameTape'
      cases sameConsole.symm.trans sameConsole'
      exact ⟨fuel, found⟩
    · rintro ⟨fuel, found⟩
      exact Tree.exists_ended unrestricted written calm found
  · constructor
    · intro forever fuel
      cases found : tree.execute options tape console fuel with
      | none => rfl
      | some answer =>
        rcases Tree.exists_ended unrestricted written calm found with ⟨budget, run, ends, _, _⟩
        rcases forever budget with ⟨still, goes⟩
        rw [ends] at goes
        cases goes
    · intro unanswered budget
      apply Classical.byContradiction
      intro none
      have ends : ∀ run, program.execute options tape console budget ≠ running run :=
        fun run goes => none ⟨run, goes⟩
      rcases Tree.exists_execute unrestricted written calm ends with ⟨fuel, answer, found⟩
      rw [unanswered fuel] at found
      cases found

/-- A read that fails in a loop, behind an inner loop that ran twice. -/
theorem structured_of_failing_read :
    ∃ program tree fuel final, parse "[>[-]<,]" = .ok program ∧
      Tree.ofInstructions? program.toList = some tree ∧
      Options.Unrestricted {} ∧ Console.Unstoppable { input := [.failure .other] } ∧
      tree.execute {} ⟨#[1, 2], 0, by decide⟩ { input := [.failure .other] } fuel =
        some (.failed (.device 6 .inputFailed), final) ∧
      final.tape.cells = #[1, 0] ∧ final.tape.pointer = 0 := by
  have read : parse "[>[-]<,]" = .ok #[.loopStart, .command .moveRight, .loopStart,
      .command .decrement, .loopEnd, .command .moveLeft, .command .input, .loopEnd] := rfl
  have unrestricted : Options.Unrestricted {} := ⟨rfl, rfl⟩
  have calm : Console.Unstoppable { input := [.failure .other] } := ⟨rfl, rfl⟩
  rcases execute_iff_structured read with ⟨tree, gathered, _, agree⟩
  rcases ((agree {} ⟨#[1, 2], 0, by decide⟩ _ unrestricted calm).1
    (.failed (.device 6 .inputFailed)) ⟨_, _⟩).mp ⟨9, _, rfl, rfl, rfl⟩ with ⟨fuel, found⟩
  exact ⟨_, tree, fuel, _, read, gathered, unrestricted, calm, found, rfl, rfl⟩

end Program
end RingTape
