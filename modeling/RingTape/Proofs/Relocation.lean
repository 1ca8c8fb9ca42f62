import RingTape.Program.Embedding
import RingTape.Proofs.OpenLoops
import RingTape.Proofs.Printing

namespace RingTape

/-!
# Runs of embedded programs

Where one program is embedded in another, a run of the outer one can go
through it as through the program alone: the position and the recorded loops
are moved, the tape is the same, and the consoles are alike in whatever way
all operations respect.  One step of the inner run is one step of the outer
one, and another one if a loop has to be passed by on the way
(`Run.Follows.exists_step`).  So an inner run that goes on forever is
followed forever, and an inner run that ends is followed to its end, with
the position of an error moved along (`Run.Follows.exists_ended`).

A step leads right behind some instruction, also when it skips a loop or
goes back (`Machine.Passed`).  That is all the simulation has to know about
the three ways in which control can move.
-/

/-- An error that names the position where another program has the
instruction. -/
def RunError.relocate (move : Nat → Nat) : RunError → RunError
  | invalidInput position mode => invalidInput (move position) mode
  | device position failure => device (move position) failure
  | stepLimit limit => stepLimit limit

/-- The same ending, with the position of an error moved. -/
def Ending.relocate (move : Nat → Nat) : Ending → Ending
  | completed => completed
  | interrupted => interrupted
  | failed error => failed (error.relocate move)

theorem Ending.notice_relocate (move : Nat → Nat) (how : Ending) :
    (how.relocate move).notice = how.notice := by
  cases how <;> rfl

/-- A machine at the corresponding place of another program. -/
def Machine.relocate (move : Nat → Nat) (machine : Machine) : Machine :=
  ⟨move machine.position, machine.openLoops.map move, machine.tape⟩

namespace Machine

/-- A machine stands right behind an instruction, and if that ends a loop,
the loop was left. -/
structure Passed (program : Program) (last : Nat) (machine : Machine) : Prop where
  inside : last < program.size
  behind : machine.position = last + 1
  left : program[last]? = some .loopEnd → machine.tape.current = 0

variable {move : Nat → Nat} {inner outer : Program} {machine next : Machine}
  {instruction : Instruction} {supplied : UInt8}

/-- Only the end of a loop says anything about the cell. -/
theorem Passed.of_ne {program : Program} {last : Nat} (here : program[last]? = some instruction)
    (other : instruction ≠ .loopEnd) (behind : machine.position = last + 1) :
    machine.Passed program last where
  inside := lt_size_of_getElem? here
  behind := behind
  left ending := absurd (Option.some.inj (here.symm.trans ending)) other

/-- Every step leads right behind some instruction, and in an outer program
it leads right behind the same one. -/
theorem exists_passed (embeds : Program.Embeds move inner outer)
    (nested : machine.Nested inner) (here : inner[machine.position]? = some instruction)
    (stepped : machine.step inner instruction supplied = .ok next) :
    ∃ last, next.Passed inner last ∧
      (machine.relocate move).step outer instruction supplied =
        .ok { next.relocate move with position := move last + 1 } := by
  have inside := lt_size_of_getElem? here
  cases instruction with
  | command action =>
    cases stepped
    exact ⟨machine.position, .of_ne here (by simp) rfl, rfl⟩
  | loopStart =>
    by_cases zero : machine.tape.current = 0
    · cases found : inner.matchingEnd? machine.position with
      | none =>
        simp only [step, zero, if_true, found] at stepped
        cases stepped
      | some close =>
        simp only [step, zero, if_true, found] at stepped
        cases stepped
        refine ⟨close, ⟨(Program.lt_of_closingFrom found).2, rfl, fun _ => zero⟩, ?_⟩
        simp only [step, relocate, zero, if_true, embeds.matchingEnd? inside found]
    · simp only [step, zero, if_false] at stepped
      cases stepped
      refine ⟨machine.position, .of_ne here (by simp) rfl, ?_⟩
      simp only [step, relocate, zero, if_false, List.map_cons]
  | loopEnd =>
    by_cases zero : machine.tape.current = 0
    · simp only [step, zero, if_true] at stepped
      cases stepped
      refine ⟨machine.position, ⟨inside, rfl, fun _ => zero⟩, ?_⟩
      simp only [step, relocate, zero, if_true, List.map_tail]
    · cases record : machine.openLoops with
      | nil =>
        simp only [step, zero, if_false, record] at stepped
        cases stepped
      | cons start around =>
        simp only [step, zero, if_false, record] at stepped
        cases stepped
        have stack : inner.openAfter machine.position = [] ++ start :: around :=
          nested.record.symm.trans record
        have opening := (Program.matchingEnd?_of_openAfter stack).2.1
        refine ⟨start, .of_ne opening (by simp) rfl, ?_⟩
        simp only [step, relocate, zero, if_false, record, List.map_cons]

end Machine

/-- A relation between consoles that no operation of a real run can tell
apart, and on which no flag is raised. -/
structure Console.Likeness (Alike : Console → Console → Prop) : Prop where
  free : ∀ {console other}, Alike console other →
    console.stopped = false ∧ other.stopped = false
  supply : ∀ {console other}, Alike console other → ∀ mode prompt instruction cell,
    (other.supply mode prompt instruction cell).1 =
        (console.supply mode prompt instruction cell).1 ∧
      Alike (console.supply mode prompt instruction cell).2
        (other.supply mode prompt instruction cell).2
  conclude : ∀ {console other}, Alike console other →
    other.conclude.1 = console.conclude.1 ∧ Alike console.conclude.2 other.conclude.2

/-- One and the same console, whose flag is down and stays so. -/
structure Console.Same (console other : Console) : Prop where
  same : other = console
  calm : console.Unstoppable

theorem Console.likeness_same : Likeness Same where
  free := by
    rintro console other ⟨rfl, calm⟩
    exact ⟨calm.stopped, calm.stopped⟩
  supply := by
    rintro console other ⟨rfl, calm⟩ mode prompt instruction cell
    exact ⟨rfl, rfl, law_unstoppable.supply _ mode prompt instruction cell calm⟩
  conclude := by
    rintro console other ⟨rfl, calm⟩
    exact ⟨rfl, rfl, law_unstoppable.conclude _ calm⟩

namespace Run

open Progress (running ended)

variable {Alike : Console → Console → Prop} {move : Nat → Nat} {inner outer : Program}
  {options : Options} {run other next final : Run} {how : Ending} {count : Nat}

/-- A run of an outer program that has come as far as a run of the program
inside it. -/
structure Follows (Alike : Console → Console → Prop) (move : Nat → Nat) (run other : Run) :
    Prop where
  machine : other.machine = run.machine.relocate move
  console : Alike run.console other.console

theorem nested_iterate {program : Program} (balanced : Program.Balanced program.toList)
    (options : Options) (nested : run.machine.Nested program) (count : Nat) :
    (Progress.iterate options program count (running run)).Nested program := by
  have start : (running run).Nested program := nested
  rw [← Progress.iterateAmid_silent]
  refine Progress.iterateAmid_preserves options program .silent ?_ count start
  intro run nested
  exact nested_advance balanced options (machine_signalled run .silent ▸ nested)

/-- A run right behind an instruction gets to where the next one is found,
without touching the tape or the console. -/
theorem exists_arrival (embeds : Program.Embeds move inner outer)
    (unrestricted : options.Unrestricted) {machine : Machine} {last : Nat}
    (passed : machine.Passed inner last)
    (stands : other.machine = { machine.relocate move with position := move last + 1 })
    (free : other.console.stopped = false) :
    ∃ few arrived, Progress.iterate options outer few (running other) = running arrived ∧
      Progress.printed options outer few (running other) = [] ∧
      arrived.machine = machine.relocate move ∧ arrived.console = other.console := by
  have place : (machine.relocate move).position = move (last + 1) := congrArg move passed.behind
  cases embeds.seam passed.inside with
  | tight next =>
    refine ⟨0, other, rfl, rfl, ?_, rfl⟩
    rw [stands, ← next, ← place]
  | loop close ending opening found next =>
    have zero : other.machine.tape.current = 0 := by
      rw [stands]
      exact passed.left ending
    have place' : other.machine.position = move last + 1 := congrArg Machine.position stands
    have here : outer[other.machine.position]? = some .loopStart := by rw [place', opening]
    have stepped : other.machine.step outer .loopStart other.machine.tape.current =
        .ok (machine.relocate move) := by
      simp only [Machine.step, zero, if_true, place', found]
      rw [stands, ← next, ← place]
    have goes : other.advance options outer =
        running ⟨machine.relocate move, other.steps + 1, other.console⟩ :=
      (advance_of_unrestricted unrestricted here free).trans (perform_of_ok rfl stepped)
    refine ⟨1, ⟨machine.relocate move, other.steps + 1, other.console⟩, ?_, ?_, rfl, rfl⟩
    · rw [Progress.iterate, goes]
      rfl
    · rw [Progress.printed, Progress.printed_zero, prints_of_running here goes]
      rfl

namespace Follows

theorem position (follows : Follows Alike move run other) :
    other.machine.position = move run.machine.position := by
  rw [follows.machine]
  rfl

theorem tape (follows : Follows Alike move run other) :
    other.machine.tape = run.machine.tape := by
  rw [follows.machine]
  rfl

theorem carries (follows : Follows Alike move run other)
    (embeds : Program.Embeds move inner outer) {instruction : Instruction}
    (here : inner[run.machine.position]? = some instruction) :
    outer[other.machine.position]? = some instruction := by
  rw [follows.position]
  exact embeds.carries here

theorem exists_supply (follows : Follows Alike move run other)
    (likeness : Console.Likeness Alike) {instruction : Instruction}
    {result : Except CommandFailure UInt8} {console : Console}
    (answer : run.console.supply options.mode options.prompt instruction
      run.machine.tape.current = (result, console)) :
    ∃ console', other.console.supply options.mode options.prompt instruction
        other.machine.tape.current = (result, console') ∧ Alike console console' := by
  rcases likeness.supply follows.console options.mode options.prompt instruction
    run.machine.tape.current with ⟨same, alike⟩
  rw [answer] at same alike
  rw [follows.tape]
  exact ⟨(other.console.supply options.mode options.prompt instruction
    run.machine.tape.current).2, Prod.ext same rfl, alike⟩

section Steps

variable (embeds : Program.Embeds move inner outer) (likeness : Console.Likeness Alike)
  (unrestricted : options.Unrestricted) (nested : run.machine.Nested inner)
  (follows : Follows Alike move run other)
include embeds likeness unrestricted nested follows

/-- What the inner run does in one step, the outer one does in one or two,
and it prints the same. -/
theorem exists_step (goes : run.advance options inner = running next) :
    ∃ few after, Progress.iterate options outer (few + 1) (running other) = running after ∧
      Progress.printed options outer (few + 1) (running other) = run.prints options inner ∧
      Follows Alike move next after := by
  have outcome := outcome_advance run options inner
  rw [goes] at outcome
  cases outcome with
  | rowWritten _ _ _ _ traced _ _ =>
    rw [unrestricted.untraced] at traced
    cases traced
  | performed instruction supplied console machine here _ answer stepped =>
    have there := follows.carries embeds here
    rcases Machine.exists_passed embeds nested here stepped with ⟨last, passed, relocated⟩
    rcases follows.exists_supply likeness answer with ⟨console', answerThere, alike⟩
    rw [← follows.machine] at relocated
    have moves := (advance_of_unrestricted unrestricted there
      (likeness.free follows.console).2).trans (perform_of_ok answerThere relocated)
    have free : (Run.mk { machine.relocate move with position := move last + 1 }
      (other.steps + 1) console').console.stopped = false := (likeness.free alike).2
    rcases exists_arrival embeds unrestricted passed rfl free with
      ⟨few, after, arrives, quiet, place, kept⟩
    refine ⟨few, after, ?_, ?_, ⟨place, ?_⟩⟩
    · rw [Progress.iterate, moves]
      exact arrives
    · rw [Progress.printed, moves, quiet, List.append_nil, prints_of_running there moves,
        prints_of_running here goes, follows.tape]
    · rw [kept]
      exact alike

omit nested in
/-- An instruction that ends the inner run ends the outer one in the same
way. -/
theorem exists_refused {instruction : Instruction}
    (here : inner[run.machine.position]? = some instruction)
    (ends : run.advance options inner = ended how final) :
    ∃ last, other.advance options outer = ended (how.relocate move) last ∧
      Follows Alike move final last := by
  have outcome := outcome_advance run options inner
  rw [ends] at outcome
  cases outcome with
  | finished done =>
    rw [here] at done
    cases done
  | interrupted _ _ stopped =>
    rw [(likeness.free follows.console).1] at stopped
    cases stopped
  | limited _ _ _ _ reached =>
    rw [exhaustedLimit_of_unrestricted unrestricted] at reached
    cases reached
  | rowRefused _ _ _ _ _ traced _ _ =>
    rw [unrestricted.untraced] at traced
    cases traced
  | refused instruction failure console here _ answer =>
    rcases follows.exists_supply likeness answer with ⟨console', answerThere, alike⟩
    refine ⟨{ other with console := console' }, ?_, ⟨follows.machine, alike⟩⟩
    rw [advance_of_unrestricted unrestricted (follows.carries embeds here)
      (likeness.free follows.console).2, perform_of_error answerThere, follows.position]
    cases failure <;> rfl

omit embeds unrestricted in
/-- If the outer program has no instruction left either, both conclude. -/
theorem exists_finished (past : outer[move inner.size]? = none)
    (done : inner[run.machine.position]? = none)
    (ends : run.advance options inner = ended how final) :
    ∃ last, other.advance options outer = ended (how.relocate move) last ∧
      Follows Alike move final last := by
  have whole := Nat.le_antisymm nested.inside (Array.getElem?_eq_none_iff.mp done)
  have there : outer[other.machine.position]? = none := by
    rw [follows.position, whole, past]
  rcases likeness.conclude follows.console with ⟨sameAnswer, alike⟩
  rw [advance_of_none done, finish_eq] at ends
  cases ends
  refine ⟨{ other with console := other.console.conclude.2 }, ?_, ⟨follows.machine, alike⟩⟩
  rw [advance_of_none there, finish_eq, sameAnswer, follows.position]
  cases run.console.conclude.1 <;> rfl

end Steps

section Runs

variable (embeds : Program.Embeds move inner outer) (likeness : Console.Likeness Alike)
  (unrestricted : options.Unrestricted) (balanced : Program.Balanced inner.toList)
  (nested : run.machine.Nested inner) (follows : Follows Alike move run other)
include embeds likeness unrestricted balanced nested follows

/-- What is true of one step is true of a whole run. -/
theorem exists_running (goes : Progress.iterate options inner count (running run) = running next) :
    ∃ more after, count ≤ more ∧
      Progress.iterate options outer more (running other) = running after ∧
      Progress.printed options outer more (running other) =
        Progress.printed options inner count (running run) ∧
      Follows Alike move next after ∧ next.machine.Nested inner := by
  induction count generalizing run other with
  | zero =>
    cases goes
    exact ⟨0, other, Nat.le_refl 0, rfl, rfl, follows, nested⟩
  | succ count ih =>
    rw [Progress.iterate] at goes
    cases first : run.advance options inner with
    | running between =>
      rw [first] at goes
      have still := nested_advance balanced options nested
      rw [first] at still
      rcases exists_step embeds likeness unrestricted nested follows first with
        ⟨few, after, moves, prints, along⟩
      rcases ih still along goes with ⟨more, last, enough, reached, printed, rest⟩
      refine ⟨few + 1 + more, last, by omega, ?_, ?_, rest⟩
      · rw [Progress.iterate_add, moves, reached]
      · rw [Progress.printed_add, moves, prints, printed, Progress.printed, first]
    | ended how final =>
      rw [first, Progress.iterate_ended] at goes
      cases goes
    | stuck why final =>
      rw [first, Progress.iterate_stuck] at goes
      cases goes

theorem exists_ended (past : outer[move inner.size]? = none)
    (ends : Progress.iterate options inner count (running run) = ended how final) :
    ∃ more last,
      Progress.iterate options outer more (running other) = ended (how.relocate move) last ∧
      Progress.printed options outer more (running other) =
        Progress.printed options inner count (running run) ∧
      Follows Alike move final last := by
  rcases Progress.exists_last ends with ⟨few, before, less, reached, stops⟩
  rcases exists_running embeds likeness unrestricted balanced nested follows reached with
    ⟨more, there, _, follow, printed, along, still⟩
  have concluded : ∃ last, there.advance options outer = ended (how.relocate move) last ∧
      Follows Alike move final last := by
    cases here : inner[before.machine.position]? with
    | none => exact exists_finished likeness still along past here stops
    | some instruction => exact exists_refused embeds likeness unrestricted along here stops
  rcases concluded with ⟨last, stopsThere, alike⟩
  refine ⟨more + 1, last, ?_, ?_, alike⟩
  · rw [Progress.iterate_add, follow, Progress.iterate, stopsThere, Progress.iterate_ended]
  · rw [Progress.printed_of_ended (Nat.lt_succ_self more) follow stopsThere, printed,
      Progress.printed_of_ended less reached stops]

/-- If the outer run ends, so does the inner one, which it has followed all
the while. -/
theorem exists_inner_ended
    (ends : Progress.iterate options outer count (running other) = ended how final) :
    ∃ how last, Progress.iterate options inner count (running run) = ended how last := by
  cases reached : Progress.iterate options inner count (running run) with
  | running still =>
    rcases exists_running embeds likeness unrestricted balanced nested follows reached with
      ⟨more, after, enough, goes, _⟩
    have stops : ∀ run, Progress.iterate options outer count (running other) ≠ running run := by
      intro run impossible
      rw [ends] at impossible
      cases impossible
    exact absurd goes (Progress.ne_running_of_le enough stops after)
  | ended how last => exact ⟨how, last, rfl⟩
  | stuck why last =>
    have kept := nested_iterate balanced options nested count
    rw [reached] at kept
    exact kept.elim

end Runs
end Follows
end Run

namespace Program

open Progress (running ended)

/-- A run of the program ends in this way, and it leaves this scene. -/
def EndsIn (program : Program) (options : Options) (tape : Tape) (console : Console)
    (how : Ending) (scene : Scene) : Prop :=
  ∃ budget run, program.execute options tape console budget = ended how run ∧
    run.machine.tape = scene.tape ∧ run.console = scene.console

/-- A run of the program never ends. -/
def RunsForever (program : Program) (options : Options) (tape : Tape) (console : Console) :
    Prop :=
  ∀ budget, ∃ run, program.execute options tape console budget = running run

/-- Both runs begin at the same place. -/
theorem follows_begin {move : Nat → Nat} {options : Options} {console : Console}
    (inner : Program) (unrestricted : options.Unrestricted) (calm : console.Unstoppable)
    (start : move 0 = 0) (tape : Tape) :
    ∃ run, Run.begin options tape console = running run ∧ run.machine.Nested inner ∧
      Run.Follows Console.Same move run run := by
  refine ⟨_, Run.begin_of_untraced unrestricted.untraced, Machine.nested_load inner tape, ?_,
    rfl, Console.law_unstoppable.recount console 0 calm⟩
  change Machine.load tape = ⟨move 0, [], tape⟩
  rw [start]
  rfl

section Whole

variable {move : Nat → Nat} {inner outer : Program} {options : Options} {console : Console}
  (embeds : Embeds move inner outer) (balanced : Balanced inner.toList)
  (unrestricted : options.Unrestricted) (calm : console.Unstoppable) (start : move 0 = 0)
include embeds balanced unrestricted calm start

/-- An embedding that keeps the beginning and the end changes nothing about
a run but the positions in it. -/
theorem endsIn_iff_of_embeds (past : outer[move inner.size]? = none) {tape : Tape}
    {how : Ending} {scene : Scene} :
    outer.EndsIn options tape console how scene ↔
      ∃ how', how = how'.relocate move ∧ inner.EndsIn options tape console how' scene := by
  rcases follows_begin inner unrestricted calm start tape with
    ⟨run, begun, nested, follows⟩
  simp only [EndsIn, execute, begun]
  constructor
  · rintro ⟨budget, final, ends, sameTape, sameConsole⟩
    rcases follows.exists_inner_ended embeds Console.likeness_same unrestricted balanced nested ends
      with ⟨how', last, stops⟩
    rcases follows.exists_ended embeds Console.likeness_same unrestricted balanced nested past stops
      with ⟨more, final', stopsThere, _, alike⟩
    rcases Progress.ended_unique ends stopsThere with ⟨rfl, rfl⟩
    exact ⟨how', rfl, budget, last, stops, alike.tape.symm.trans sameTape,
      alike.console.same.symm.trans sameConsole⟩
  · rintro ⟨how', rfl, budget, last, stops, sameTape, sameConsole⟩
    rcases follows.exists_ended embeds Console.likeness_same unrestricted balanced nested past stops
      with ⟨more, final, stopsThere, _, alike⟩
    exact ⟨more, final, stopsThere, alike.tape.trans sameTape, alike.console.same.trans sameConsole⟩

theorem runsForever_iff_of_embeds (past : outer[move inner.size]? = none) {tape : Tape} :
    outer.RunsForever options tape console ↔ inner.RunsForever options tape console := by
  rcases follows_begin inner unrestricted calm start tape with
    ⟨run, begun, nested, follows⟩
  constructor
  · intro forever budget
    cases reached : inner.execute options tape console budget with
    | running still => exact ⟨still, rfl⟩
    | ended how last =>
      rw [execute, begun] at reached
      rcases follows.exists_ended embeds Console.likeness_same unrestricted balanced nested past
        reached with ⟨more, final, stops, _⟩
      rcases forever more with ⟨still, goes⟩
      rw [execute, begun, stops] at goes
      cases goes
    | stuck why last =>
      rw [← executeAmid_silent] at reached
      exact absurd reached (executeAmid_ne_stuck balanced options tape console _ budget why last)
  · intro forever budget
    rcases forever budget with ⟨still, goes⟩
    rw [execute, begun] at goes
    rcases follows.exists_running embeds Console.likeness_same unrestricted balanced nested goes
      with ⟨more, after, enough, moves, _⟩
    apply Classical.byContradiction
    intro none
    rw [execute, begun] at none
    exact Progress.ne_running_of_le enough (not_exists.mp none) after moves

end Whole
end Program
end RingTape
