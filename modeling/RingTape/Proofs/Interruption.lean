import RingTape.Proofs.Lockstep

namespace RingTape

/-!
# Stopping a run by what it writes

A console may raise its own stop flag, by the write that brings the output to
a threshold.  Such a write can happen at the header, in the middle of an
instruction, or at the notice, but the flag is looked at only in front of an
instruction.  So the run goes on as if nothing had been raised up to that
point, and stops there if an instruction is left.  If none is left, the flag
comes too late to matter.

The run without the threshold is the measure of both cases.  It tells at
which moments the threshold has been reached while an instruction is left
(`Program.CrossedAt`), and what the run that stops there has written and left
behind (`Program.Interrupted`).  Once the flag is up it stays up, and
whatever is run on the console then stops in front of its first instruction
(`Errand.start_of_stopped`).
-/

namespace Console

/-- The console with a flag that goes up when the output reaches so many
bytes. -/
def withThreshold (threshold : Nat) (console : Console) : Console :=
  { console with stopAfter := some threshold }

/-- Whether writing has brought a sink that held so many bytes to the
threshold. -/
def crossed (threshold held total : Nat) : Bool :=
  held < total && threshold ≤ total

/-- The console as the threshold makes it, if it once held so many bytes and
has been written to since. -/
def armed (threshold held : Nat) (console : Console) : Console :=
  { console with
    stopAfter := some threshold
    stopped := crossed threshold held console.output.accepted.size }

section Thresholds

variable {console : Console} {threshold held : Nat}

theorem withThreshold_eq_armed (down : console.stopped = false) (threshold : Nat) :
    console.withThreshold threshold =
      console.armed threshold console.output.accepted.size := by
  have unwritten : crossed threshold console.output.accepted.size
      console.output.accepted.size = false := by
    simp only [crossed, Nat.lt_irrefl, decide_false, Bool.false_and]
  rw [withThreshold, armed, unwritten, ← down]

theorem slight_armed (threshold held : Nat) : Slight (armed threshold held) where
  emitted _ := rfl
  recount _ _ := rfl
  flush console := by
    have same := accepted_flush console
    simp only [armed, Prod.map]
    rw [same]
    rfl
  ask _ prompt := by
    cases prompt <;> rfl
  receive _ _ := rfl

/-- What a write adds is seen by the threshold. -/
theorem crossed_add (threshold : Nat) {held size : Nat} (count : Nat) (within : held ≤ size) :
    (crossed threshold held size || raisesStop (some threshold) count (size + count)) =
      crossed threshold held (size + count) := by
  simp only [crossed, raisesStop]
  grind

theorem write_armed (unbounded : console.output.capacity = none)
    (within : held ≤ console.output.accepted.size) (text : String) :
    (console.armed threshold held).write text =
      (console.write text).map id (armed threshold held) := by
  have raised := crossed_add threshold (Text.encode text).length within
  rcases console with ⟨input, ⟨accepted, bound, left, flushes, visible⟩, prompts, emitted,
    stopAfter, stopped⟩
  cases unbounded
  have size : (accepted ++ Text.encode text).size =
      accepted.size + (Text.encode text).length := by
    rw [← Array.length_toList, Array.toList_appendList, List.length_append, Array.length_toList]
  simp only [write, armed, Sink.write, Sink.room, List.take_length, Prod.map, id_eq, size, raised]

end Thresholds
end Console

namespace Run

open Console (armed slight_armed crossed)

variable {run : Run} {options : Options} {program : Program} {threshold held : Nat}

/-- A step does not notice the threshold as long as it has not been crossed,
and neither does the conclusion of a run in any case. -/
theorem advance_armed (good : run.console.Undisturbed)
    (within : held ≤ run.console.output.accepted.size)
    (quiet : run.machine.position < program.size →
      crossed threshold held run.console.output.accepted.size = false) :
    (run.onConsole (armed threshold held)).advance options program =
      (run.advance options program).onConsole (armed threshold held) := by
  refine advance_of_passes (passes_of_written (slight_armed threshold held) ?_
    (Console.write_armed good.reliable.capacity within _))
  intro instruction here
  rw [good.calm.stopped]
  exact quiet (Array.getElem?_eq_some_iff.mp here).1

/-- A crossed threshold stops the run if an instruction is left. -/
theorem advance_armed_of_crossed (good : run.console.Undisturbed)
    (inside : run.machine.position < program.size)
    (raised : crossed threshold held run.console.output.accepted.size = true) :
    (run.onConsole (armed threshold held)).advance options program =
      .ended .interrupted { run with console := (run.console.armed threshold held).flush.2 } := by
  have here : program[(run.onConsole (armed threshold held)).machine.position]? =
      some program[run.machine.position] := Array.getElem?_eq_getElem inside
  have flushed : (run.onConsole (armed threshold held)).console.flush.1 = .ok () :=
    Console.flush_fst_of_reliable good.reliable
  rw [advance_of_stopped here raised, interrupt_eq, flushed]
  rfl

end Run

namespace Program

open Console (armed slight_armed crossed)
open Progress (running ended)

variable {program : Program} {options : Options} {tape : Tape} {console : Console}
  {threshold budget count : Nat}

/-- Whether a run without the threshold would have to stop after so many
instructions: its output has come to the threshold by then, and there is an
instruction left. -/
def CrossedAt (program : Program) (options : Options) (tape : Tape) (console : Console)
    (threshold count : Nat) : Prop :=
  ∃ run, program.execute options tape console count = running run ∧
    run.machine.position < program.size ∧
    crossed threshold console.output.accepted.size run.console.output.accepted.size = true

theorem held_le_of_running {run : Run}
    (goes : program.execute options tape console count = running run) :
    console.output.accepted.size ≤ run.console.output.accepted.size := by
  rw [← executeAmid_silent] at goes
  have written := congrArg List.length (accepted_of_running goes)
  rw [List.length_append, Array.length_toList, Array.length_toList] at written
  omega

/-- Up to the first such moment the threshold makes no difference. -/
theorem execute_armed (good : console.Undisturbed)
    (quiet : ∀ earlier < budget, ¬ program.CrossedAt options tape console threshold earlier) :
    program.execute options tape (console.withThreshold threshold) budget =
      (program.execute options tape console budget).onConsole
        (armed threshold console.output.accepted.size) := by
  rw [Console.withThreshold_eq_armed good.calm.stopped, ← executeAmid_silent,
    ← executeAmid_silent]
  refine executeAmid_onConsole ?_ ?_
  · have fresh : ({ console with emitted := 0 } : Console).output.capacity = none :=
      good.reliable.capacity
    exact Run.begin_of_opening (slight_armed _ _) (Console.write_armed fresh (Nat.le_refl _) _) tape
  · intro count run less goes
    rw [executeAmid_silent] at goes
    have kept := Console.law_undisturbed.of_running good goes
    rw [Run.signalled_silent, Run.signalled_silent]
    refine Run.advance_armed kept (held_le_of_running goes) fun inside => ?_
    cases raised : crossed threshold console.output.accepted.size
      run.console.output.accepted.size with
    | false => rfl
    | true => exact absurd ⟨run, goes, inside, raised⟩ (quiet count less)

/-- What becomes of a run whose flag goes up after so many instructions: it
stops there as the run without the threshold stands, with the same output,
which holds everything that was to be written up to there, and no part of
the notice. -/
structure Interrupted (program : Program) (options : Options) (tape : Tape) (console : Console)
    (threshold count : Nat) (run final : Run) : Prop where
  goes : program.execute options tape console count = running run
  ends : program.execute options tape (console.withThreshold threshold) (count + 1) =
    ended .interrupted final
  machine : final.machine = run.machine
  steps : final.steps = count
  unread : final.console.input = run.console.input
  accepted : final.console.output.accepted = run.console.output.accepted
  whole : run.console.output.accepted.toList = console.output.accepted.toList ++
    (program.transcript options tape console .silent count).flatMap Passage.bytes
  unconcluded : ∀ passage ∈ program.transcript options tape console .silent count,
    passage.author ≠ .notice
  raised : final.console.stopped = true
  reliable : final.console.output.Reliable

theorem exists_interrupted (good : console.Undisturbed)
    (crossing : program.CrossedAt options tape console threshold count)
    (quiet : ∀ earlier < count, ¬ program.CrossedAt options tape console threshold earlier) :
    ∃ run final, program.Interrupted options tape console threshold count run final := by
  rcases crossing with ⟨run, goes, inside, raised⟩
  have abreast := execute_armed good quiet
  have good := Console.law_undisturbed.of_running good goes
  rw [goes] at abreast
  have counted := goes
  rw [← executeAmid_silent] at counted
  have carried : run.steps = count := steps_of_executeAmid counted
  have stops := @Run.advance_armed_of_crossed _ options _ _ _ good inside raised
  rw [← execute_succ_of_running abreast] at stops
  exact ⟨run, _, goes, stops, rfl, carried, rfl,
    Console.accepted_flush (run.console.armed _ _), accepted_of_running counted,
    notice_notMem_of_running counted, raised, Sink.reliable_flush good.reliable⟩

end Program

/-! ## Later runs -/

/-- A program that is to be run with its own options on its own tape. -/
structure Errand where
  program : Program
  options : Options
  tape : Tape

namespace Errand

/-- The first step of an errand, on this console. -/
def start (errand : Errand) (console : Console) : Progress :=
  errand.program.execute errand.options errand.tape console 1

/-- What an errand writes although the flag is up: the header of a traced
run, and the notice if there is no instruction to stop at. -/
def leftover (errand : Errand) : List UInt8 :=
  Text.encode (Run.opening errand.options) ++
    if errand.program.size = 0 then Text.encode Console.completionNotice else []

/-- How an errand ends if the flag is up. -/
def stoppedEnding (errand : Errand) : Ending :=
  if errand.program.size = 0 then .completed else .interrupted

/-- The console after some errands, one after the other. -/
def consoleAfter (errands : List Errand) (console : Console) : Console :=
  errands.foldl (fun console errand => (errand.start console).run.console) console

end Errand

/-- A flag that is up stays up. -/
theorem Console.law_stopped :
    Law fun before after => before.stopped = true → after.stopped = true where
  refl _ := id
  trans first second := second ∘ first
  recount _ _ := id
  write console text raised := by
    change (console.stopped || _) = true
    rw [raised, Bool.true_or]
  flush _ := id
  ask _ prompt raised := by
    cases prompt <;> exact raised
  receive _ _ := id

namespace Run

variable {options : Options} {program : Program}

/-- With the flag up every step is the last one. -/
theorem advance_of_raised {run : Run} (raised : run.console.stopped = true)
    (reliable : run.console.output.Reliable) :
    ∃ after : Console,
      run.advance options program =
        .ended (if program.size ≤ run.machine.position then .completed else .interrupted)
          { run with console := after } ∧
      after.input = run.console.input ∧
      after.output.accepted.toList = run.console.output.accepted.toList ++
        (if program.size ≤ run.machine.position then Text.encode Console.completionNotice
          else []) ∧
      after.stopped = true ∧ after.output.Reliable := by
  by_cases past : program.size ≤ run.machine.position
  · have concluded := Console.conclude_fst_of_reliable reliable
    have written := Console.accepted_write_of_ok
      (Console.write_fst_of_reliable reliable Console.completionNotice)
    refine ⟨run.console.conclude.2, ?_, (Console.law_untouched.conclude run.console).1, ?_,
      Console.law_stopped.conclude run.console raised,
      Console.law_reliable.conclude run.console reliable⟩
    · rw [advance_of_none (Array.getElem?_eq_none past), finish_eq, concluded, if_pos past]
      rfl
    · rw [Console.accepted_conclude, written, if_pos past]
  · have inside := Nat.lt_of_not_le past
    have flushed := Console.flush_fst_of_reliable reliable
    refine ⟨run.console.flush.2, ?_, rfl, ?_, raised, Sink.reliable_flush reliable⟩
    · rw [advance_of_stopped (Array.getElem?_eq_getElem inside) raised, interrupt_eq, flushed,
        if_neg past]
      rfl
    · rw [Console.accepted_flush, if_neg past, List.append_nil]

end Run

namespace Errand

open Progress (running ended)

variable {console : Console}

/-- With the flag up an errand ends before its first instruction.  Nothing
but its leftover is written, and neither the tape nor the input is touched. -/
theorem start_of_stopped (errand : Errand) (raised : console.stopped = true)
    (reliable : console.output.Reliable) :
    ∃ final, errand.start console = ended errand.stoppedEnding final ∧
      final.machine = .load errand.tape ∧ final.steps = 0 ∧
      final.console.input = console.input ∧
      final.console.output.accepted.toList =
        console.output.accepted.toList ++ errand.leftover ∧
      final.console.stopped = true ∧ final.console.output.Reliable := by
  rcases Run.begin_of_unbounded reliable.capacity errand.options errand.tape with ⟨fresh, begun⟩
  have freshRaised := Run.keeps_begin Console.law_stopped.toOutputLaw errand.options errand.tape
    console raised
  have freshReliable := Run.keeps_begin Console.law_reliable.toOutputLaw errand.options
    errand.tape console reliable
  have untouched := (Run.keeps_begin Console.law_untouched errand.options errand.tape console).1
  have opened := congrArg Array.toList (Run.accepted_begin errand.options errand.tape console)
  rw [begun] at freshRaised freshReliable untouched opened
  rw [Console.accepted_write_of_ok (Console.write_fst_of_reliable reliable _)] at opened
  rcases @Run.advance_of_raised errand.options errand.program ⟨.load errand.tape, 0, fresh⟩
    freshRaised freshReliable with ⟨after, ends, unread, written, stillRaised, stillReliable⟩
  have empty : errand.program.size ≤ (Machine.load errand.tape).position ↔
      errand.program.size = 0 := Nat.le_zero
  simp only [empty] at ends written
  refine ⟨⟨.load errand.tape, 0, after⟩, ?_, rfl, rfl, unread.trans untouched, ?_, stillRaised,
    stillReliable⟩
  · have goes : errand.program.execute errand.options errand.tape console 0 =
        running ⟨.load errand.tape, 0, fresh⟩ := by
      rw [Program.execute_zero, begun]
    exact (Program.execute_succ_of_running goes).trans ends
  · rw [written, leftover, ← List.append_assoc, ← opened]
    rfl

theorem consoleAfter_of_stopped (errands : List Errand) (raised : console.stopped = true)
    (reliable : console.output.Reliable) :
    (consoleAfter errands console).stopped = true ∧
      (consoleAfter errands console).output.Reliable ∧
      (consoleAfter errands console).input = console.input ∧
      (consoleAfter errands console).output.accepted.toList =
        console.output.accepted.toList ++ errands.flatMap leftover := by
  induction errands generalizing console with
  | nil => exact ⟨raised, reliable, rfl, (List.append_nil _).symm⟩
  | cons errand errands ih =>
    rcases errand.start_of_stopped raised reliable with
      ⟨final, ends, _, _, unread, written, stillRaised, stillReliable⟩
    have next : consoleAfter (errand :: errands) console =
        consoleAfter errands final.console := by
      simp only [consoleAfter, List.foldl_cons, ends]
      rfl
    rcases ih stillRaised stillReliable with ⟨kept, open_, untouched, appended⟩
    rw [next]
    refine ⟨kept, open_, untouched.trans unread, ?_⟩
    rw [appended, written, List.flatMap_cons, List.append_assoc]

end Errand

namespace Program

open Console (armed)
open Progress (running ended)

/-- A threshold on the output stops a run between two instructions of the run
without it, or makes no difference.  It stops the run at the first moment at
which the output has come to the threshold while an instruction is left; up
to that moment, and for good if there is none, the two runs are the same but
for the flag.  On a console whose flag is up all later runs together write
their leftovers only, read nothing, and leave their tapes alone. -/
theorem interruption_of_threshold {console : Console} (good : console.Undisturbed)
    (program : Program) (options : Options) (tape : Tape) (threshold : Nat) :
    (∀ count, program.CrossedAt options tape console threshold count →
      (∀ earlier < count, ¬ program.CrossedAt options tape console threshold earlier) →
        ∃ run final, program.Interrupted options tape console threshold count run final) ∧
    (∀ budget,
      (∀ earlier < budget, ¬ program.CrossedAt options tape console threshold earlier) →
        program.execute options tape (console.withThreshold threshold) budget =
          (program.execute options tape console budget).onConsole
            (armed threshold console.output.accepted.size)) ∧
    ∀ spent : Console, spent.stopped = true → spent.output.Reliable →
      ∀ errands : List Errand,
        (Errand.consoleAfter errands spent).stopped = true ∧
        (Errand.consoleAfter errands spent).input = spent.input ∧
        (Errand.consoleAfter errands spent).output.accepted.toList =
          spent.output.accepted.toList ++ errands.flatMap Errand.leftover ∧
        ∀ errand : Errand, ∃ final,
          errand.start (Errand.consoleAfter errands spent) = ended errand.stoppedEnding final ∧
            final.machine = .load errand.tape := by
  refine ⟨fun _ => exists_interrupted good, fun _ => execute_armed good, ?_⟩
  intro spent raised reliable errands
  rcases Errand.consoleAfter_of_stopped errands raised reliable with
    ⟨kept, open_, untouched, appended⟩
  refine ⟨kept, untouched, appended, fun errand => ?_⟩
  rcases errand.start_of_stopped kept open_ with ⟨final, ends, alone, _⟩
  exact ⟨final, ends, alone⟩

/-- The threshold falls into the second number, and an instruction is left
behind it.  The traced program that comes next writes its header only. -/
theorem interruption_in_second_number :
    ∃ program run final, parse "+.+.+" = .ok program ∧ ({} : Console).Undisturbed ∧
      program.Interrupted { mode := .numeric } ⟨#[11], 0, by decide⟩ {} 3 4 run final ∧
      final.console.output.accepted.toList = [49, 50, 32, 49, 51] ∧
      final.machine.tape.cells = #[13] ∧
      program.execute { mode := .numeric } ⟨#[11], 0, by decide⟩
          (({} : Console).withThreshold 6) 6 =
        (program.execute { mode := .numeric } ⟨#[11], 0, by decide⟩ {} 6).onConsole
          (armed 6 0) ∧
      (Errand.consoleAfter [⟨#[.command .input], { traced := true }, ⟨#[7], 0, by decide⟩⟩]
        final.console).output.accepted.toList =
          [49, 50, 32, 49, 51] ++ Text.encode Trace.header := by
  have read : parse "+.+.+" = .ok #[.command .increment, .command .output, .command .increment,
      .command .output, .command .increment] := rfl
  have good : ({} : Console).Undisturbed := ⟨⟨rfl, rfl⟩, ⟨rfl, rfl⟩⟩
  have law := interruption_of_threshold good
    #[.command .increment, .command .output, .command .increment, .command .output,
      .command .increment] { mode := .numeric } ⟨#[11], 0, by decide⟩
  have early (earlier : Nat) (less : earlier < 4) :
      ¬ CrossedAt #[.command .increment, .command .output, .command .increment,
        .command .output, .command .increment] { mode := .numeric } ⟨#[11], 0, by decide⟩ {}
        3 earlier := by
    rintro ⟨run, goes, _, raised⟩
    rcases (by omega : earlier = 0 ∨ earlier = 1 ∨ earlier = 2 ∨ earlier = 3) with
      rfl | rfl | rfl | rfl <;> cases goes <;> exact absurd raised (by decide)
  have never (earlier : Nat) (less : earlier < 6) :
      ¬ CrossedAt #[.command .increment, .command .output, .command .increment,
        .command .output, .command .increment] { mode := .numeric } ⟨#[11], 0, by decide⟩ {}
        6 earlier := by
    rintro ⟨run, goes, _, raised⟩
    rcases (by omega : earlier = 0 ∨ earlier = 1 ∨ earlier = 2 ∨ earlier = 3 ∨ earlier = 4 ∨
      earlier = 5) with rfl | rfl | rfl | rfl | rfl | rfl <;> cases goes <;>
        exact absurd raised (by decide)
  rcases (law 3).1 4 ⟨_, rfl, by decide, by decide⟩
    early with ⟨run, final, stops⟩
  have goes := stops.goes
  cases goes
  have rest := (law 3).2.2 final.console stops.raised stops.reliable
    [⟨#[.command .input], { traced := true }, ⟨#[7], 0, by decide⟩⟩]
  have written := congrArg Array.toList stops.accepted
  refine ⟨_, _, final, read, good, stops, written, congrArg (·.tape.cells) stops.machine,
    (law 6).2.1 6 never, ?_⟩
  rw [rest.2.2.1, written]
  rfl

end Program
end RingTape
