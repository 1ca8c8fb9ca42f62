import RingTape.Proofs.Lockstep
import RingTape.Proofs.StepLimit

namespace RingTape

/-!
# Sinks that fill up

A sink with a capacity takes the beginning of the output and refuses the
rest.  As long as everything fits, a run does not notice the capacity.  The
first passage that does not fit is accepted in part and ends the run, at the
author of that passage.

The run without the capacity serves as the measure: its transcript says which
bytes are to be written and by whom, and the run that is cut off is left with
its tape and its input (`Program.executeAmid_withCapacity`).  Nothing is
assumed of the flushes, of the stop flag or of those who raise it.
-/

namespace Console

/-- The console with a sink of this capacity. -/
def withCapacity (capacity : Nat) (console : Console) : Console :=
  { console with output := { console.output with capacity := some capacity } }

variable {console : Console} {capacity : Nat} {text : String}

theorem slight_withCapacity (capacity : Nat) : Slight (withCapacity capacity) where
  emitted _ := rfl
  recount _ _ := rfl
  flush console := by
    rcases console with ⟨input, ⟨accepted, bound, _ | _ | left, flushes, visible⟩, _⟩ <;> rfl
  ask _ prompt := by
    cases prompt <;> rfl
  receive _ _ := rfl

/-- A text for which there is room is written as if there were no bound. -/
theorem write_withCapacity_of_le (unbounded : console.output.capacity = none)
    (fits : console.output.accepted.size + (Text.encode text).length ≤ capacity) :
    (console.withCapacity capacity).write text =
      (console.write text).map id (withCapacity capacity) := by
  have room : Sink.room (some capacity) console.output.accepted.size (Text.encode text).length =
      Sink.room none console.output.accepted.size (Text.encode text).length :=
    Nat.min_eq_left (Nat.le_sub_of_add_le' fits)
  rcases console with ⟨input, ⟨accepted, bound, left, flushes, visible⟩, prompts, emitted,
    stopAfter, stopped⟩
  cases unbounded
  simp only [write, withCapacity, Sink.write, room, Prod.map, id_eq]
  rfl

/-- Of any other text a beginning is written, and the write fails. -/
theorem write_withCapacity_of_lt (within : console.output.accepted.size ≤ capacity)
    (tight : capacity < console.output.accepted.size + (Text.encode text).length) :
    ((console.withCapacity capacity).write text).1 = .error .sinkFull ∧
      ((console.withCapacity capacity).write text).2.output.accepted.toList =
        console.output.accepted.toList ++
          (Text.encode text).take (capacity - console.output.accepted.size) := by
  have room : ((console.withCapacity capacity).output.write (Text.encode text)).1 =
      capacity - console.output.accepted.size :=
    Nat.min_eq_right (by omega)
  constructor
  · rw [write_eq, room, if_neg (by omega)]
  · rw [accepted_write, room]
    rfl

end Console

namespace Run

open Console (withCapacity slight_withCapacity)

variable {run : Run} {options : Options} {program : Program} {capacity : Nat}

/-- Without room for its header a traced run ends before it begins. -/
theorem begin_withCapacity_of_lt {console : Console}
    (within : console.output.accepted.size ≤ capacity)
    (tight : capacity < console.output.accepted.size + (Text.encode (opening options)).length)
    (tape : Tape) :
    ∃ final, begin options tape (console.withCapacity capacity) =
        .ended (.failed (.device 0 .sinkFull)) final ∧
      final.console.output.accepted.toList = console.output.accepted.toList ++
        (Text.encode (opening options)).take (capacity - console.output.accepted.size) ∧
      final.machine.tape = tape ∧ final.console.input = console.input := by
  have fresh : ({ console with emitted := 0 } : Console).output.accepted.size ≤ capacity := within
  rcases Console.write_withCapacity_of_lt fresh tight with ⟨refused, beginning⟩
  cases traced : options.traced with
  | false =>
    rw [opening_of_untraced traced] at tight
    exact absurd within (Nat.not_le_of_lt tight)
  | true =>
    rw [opening_of_traced traced] at refused beginning ⊢
    rcases answer : (({ console with emitted := 0 } : Console).withCapacity capacity).write
      Trace.header with ⟨failure | _, after⟩
    · rw [answer] at refused beginning
      cases refused
      have input := (Console.law_untouched.write
        (({ console with emitted := 0 } : Console).withCapacity capacity) Trace.header).1
      rw [answer] at input
      exact ⟨_, begin_of_error traced answer, beginning, rfl, input⟩
    · rw [answer] at refused
      cases refused

/-- A step whose passage fits does not notice the capacity. -/
theorem advance_withCapacity_of_le (unbounded : run.console.output.capacity = none)
    (fits : run.console.output.accepted.size + (run.passage options program).bytes.length ≤
      capacity) :
    (run.onConsole (withCapacity capacity)).advance options program =
      (run.advance options program).onConsole (withCapacity capacity) :=
  advance_of_passes (passes_of_written (slight_withCapacity capacity) (fun _ _ => rfl)
    (Console.write_withCapacity_of_le unbounded fits))

/-- A step whose passage does not fit ends the run there.  What has been
accepted by then is the beginning of the passage, the tape is the one that
the passage is about, and nothing was read. -/
theorem advance_withCapacity_of_lt (within : run.console.output.accepted.size ≤ capacity)
    (tight : capacity <
      run.console.output.accepted.size + (run.passage options program).bytes.length) :
    ∃ final, (run.onConsole (withCapacity capacity)).advance options program =
        .ended (.failed (.device run.machine.position .sinkFull)) final ∧
      final.console.output.accepted.toList = run.console.output.accepted.toList ++
        (run.passage options program).bytes.take
          (capacity - run.console.output.accepted.size) ∧
      final.machine.tape = run.tapeShown options program ∧
      final.console.input = run.console.input := by
  have same := @passage_onConsole _ run options program (slight_withCapacity capacity) rfl
  rcases Console.write_withCapacity_of_lt within tight with ⟨refused, beginning⟩
  have handing := handing_advance (run.onConsole (withCapacity capacity)) options program
  generalize (run.onConsole (withCapacity capacity)).advance options program = progress at handing
  cases handing with
  | refused failure machine cut shown =>
    rw [same] at cut ⊢
    have reason : failure = .sinkFull := Console.failure_of_write cut
    subst reason
    exact ⟨_, rfl, beginning, shown, rfl⟩
  | accepted _ whole _ _ =>
    rw [same] at whole
    have impossible := refused.symm.trans whole
    cases impossible

/-- Without the capacity the same step leaves the same tape and the same
input. -/
theorem shown_of_unbounded (unbounded : run.console.output.capacity = none)
    (loud : (run.passage options program).bytes ≠ []) :
    (run.advance options program).run.machine.tape = run.tapeShown options program ∧
      (run.advance options program).run.console.input = run.console.input := by
  have whole := Console.write_fst_of_unbounded unbounded (run.passage options program).text
  have handing := handing_advance run options program
  generalize run.advance options program = progress at handing
  cases handing with
  | refused failure machine cut _ =>
    have impossible := whole.symm.trans cut
    cases impossible
  | accepted _ _ _ shown =>
    refine shown fun silent => loud ?_
    rw [Passage.bytes, silent]
    rfl

end Run

/-! ## A whole run -/

theorem Passage.length_authors (passage : Passage) :
    passage.authors.length = passage.bytes.length :=
  List.length_replicate

theorem Passage.getElem?_authors {passage : Passage} {index : Nat}
    (inside : index < passage.bytes.length) : passage.authors[index]? = some passage.author := by
  rw [authors, List.getElem?_replicate_of_lt inside]

theorem Passage.length_flatMap_authors (passages : List Passage) :
    (passages.flatMap authors).length = (passages.flatMap bytes).length := by
  simp only [List.length_flatMap, length_authors]

/-- Where the last of some passages is cut, its author is the author of the
first byte behind the cut, and in front of the cut there is a beginning of
it. -/
theorem Passage.cut_last {passages : List Passage} {passage : Passage} {room : Nat}
    (fits : (passages.flatMap bytes).length ≤ room)
    (tight : room < (passages.flatMap bytes).length + passage.bytes.length) :
    ((passages ++ [passage]).flatMap authors)[room]? = some passage.author ∧
      ((passages ++ [passage]).flatMap bytes).take room =
        passages.flatMap bytes ++
          passage.bytes.take (room - (passages.flatMap bytes).length) := by
  rw [List.flatMap_append, List.flatMap_append, List.flatMap_singleton, List.flatMap_singleton]
  constructor
  · have behind : (passages.flatMap authors).length ≤ room := by rwa [length_flatMap_authors]
    rw [List.getElem?_append_right behind, length_flatMap_authors]
    exact getElem?_authors (by omega)
  · rw [List.take_append, List.take_of_length_le fits]

namespace Program

open Console (withCapacity slight_withCapacity)
open Progress (running ended)

variable {program : Program} {options : Options} {tape : Tape} {console : Console}
  {signals : Signals} {room budget : Nat}

/-- What becomes of a run for whose output there is too little room: the
author of the first byte that is refused, the number of steps after which the
unlimited run has written that byte, and the run as it is left. -/
structure Truncated (program : Program) (options : Options) (tape : Tape) (console : Console)
    (signals : Signals) (room budget : Nat) (author : Author) (count : Nat) (final : Run) :
    Prop where
  attributed : ((program.transcript options tape console signals budget).flatMap
    Passage.authors)[room]? = some author
  ends : program.executeAmid options tape
      (console.withCapacity (console.output.accepted.size + room)) signals budget =
    ended (.failed (.device (author.position program) .sinkFull)) final
  accepted : final.console.output.accepted.toList = console.output.accepted.toList ++
    ((program.transcript options tape console signals budget).flatMap Passage.bytes).take room
  within : count ≤ budget
  exceeds : console.output.accepted.size + room <
    (program.executeAmid options tape console signals count).written.size
  fits : ∀ earlier < count,
    (program.executeAmid options tape console signals earlier).written.size ≤
      console.output.accepted.size + room
  shown : final.machine.tape =
    (program.executeAmid options tape console signals count).run.machine.tape
  unread : final.console.input =
    (program.executeAmid options tape console signals count).run.console.input

theorem length_transcript_le {few many : Nat} (more : few ≤ many) :
    ((program.transcript options tape console signals few).flatMap Passage.bytes).length ≤
      ((program.transcript options tape console signals many).flatMap Passage.bytes).length := by
  induction more with
  | refl => exact Nat.le_refl _
  | step _ ih =>
    rw [transcript, List.flatMap_append, List.length_append]
    exact Nat.le_add_right_of_le ih

theorem size_written (unbounded : console.output.capacity = none) (budget : Nat) :
    (program.executeAmid options tape console signals budget).written.size =
      console.output.accepted.size +
        ((program.transcript options tape console signals budget).flatMap Passage.bytes).length := by
  have whole := congrArg List.length
    (@accepted_of_unbounded program options tape console signals unbounded budget)
  rw [List.length_append, Array.length_toList, Array.length_toList] at whole
  exact whole

/-- As long as everything fits, the two runs go abreast. -/
theorem executeAmid_withCapacity_of_le (unbounded : console.output.capacity = none)
    (fits : ((program.transcript options tape console signals budget).flatMap
      Passage.bytes).length ≤ room) :
    program.executeAmid options tape
        (console.withCapacity (console.output.accepted.size + room)) signals budget =
      (program.executeAmid options tape console signals budget).onConsole
        (withCapacity (console.output.accepted.size + room)) := by
  refine executeAmid_onConsole ?_ ?_
  · have opening := Nat.le_trans (length_transcript_le (Nat.zero_le budget)) fits
    rw [transcript_zero_bytes] at opening
    exact Run.begin_of_opening (slight_withCapacity _)
      (Console.write_withCapacity_of_le unbounded (Nat.add_le_add_left opening _)) tape
  · intro count run less reached
    have within := Nat.le_trans (length_transcript_le (Nat.succ_le_of_lt less)) fits
    rw [transcript_succ_of_running reached, List.flatMap_append, List.flatMap_singleton,
      List.length_append] at within
    have held := @size_written program options tape console signals unbounded count
    have bounds := capacity_executeAmid program options tape console signals count
    rw [reached] at held bounds
    have size : (run.signalled signals).console.output.accepted.size = _ := held
    have free : (run.signalled signals).console.output.capacity = none := bounds.trans unbounded
    refine Run.advance_withCapacity_of_le free ?_
    rw [size]
    omega

theorem Truncated.succ {author : Author} {count : Nat} {final : Run}
    (cut : program.Truncated options tape console signals room budget author count final) :
    program.Truncated options tape console signals room (budget + 1) author count final where
  attributed := by
    have inside := (List.getElem?_eq_some_iff.mp cut.attributed).1
    rw [transcript, List.flatMap_append, List.getElem?_append_left inside]
    exact cut.attributed
  ends := executeAmid_of_le (Nat.le_succ budget) cut.ends
  accepted := by
    have inside := (List.getElem?_eq_some_iff.mp cut.attributed).1
    rw [Passage.length_flatMap_authors] at inside
    rw [transcript, List.flatMap_append, List.take_append_of_le_length (Nat.le_of_lt inside)]
    exact cut.accepted
  within := Nat.le_succ_of_le cut.within
  exceeds := cut.exceeds
  fits := cut.fits
  shown := cut.shown
  unread := cut.unread

/-- A traced run without room for the header of its table. -/
theorem exists_truncated_zero (unbounded : console.output.capacity = none)
    (tight : room < ((program.transcript options tape console signals 0).flatMap
      Passage.bytes).length) :
    ∃ author count final,
      program.Truncated options tape console signals room 0 author count final := by
  have size := @size_written program options tape console signals unbounded 0
  have untouched := (Run.keeps_begin Console.law_untouched options tape console).1
  have loaded := congrArg Machine.tape (Run.machine_begin options tape console)
  rw [← @executeAmid_zero program options tape console signals] at untouched loaded
  have opening := tight
  rw [transcript_zero_bytes] at opening
  rcases Run.begin_withCapacity_of_lt (Nat.le_add_right _ room) (Nat.add_lt_add_left opening _)
    tape with ⟨final, ends, beginning, shown, unread⟩
  refine ⟨.header, 0, final, ?_, ?_, ?_, Nat.le_refl 0, ?_, ?_, ?_, ?_⟩
  · rw [transcript] at tight ⊢
    cases traced : options.traced with
    | false =>
      rw [traced] at tight
      exact absurd tight (Nat.not_lt_zero room)
    | true =>
      simp only [traced, if_true, List.flatMap_singleton] at tight ⊢
      exact Passage.getElem?_authors tight
  · rw [executeAmid_zero]
    exact ends
  · rw [transcript_zero_bytes, beginning, Nat.add_sub_cancel_left]
  · omega
  · exact fun _ less => absurd less (Nat.not_lt_zero _)
  · exact shown.trans loaded.symm
  · exact unread.trans untouched.symm

/-- The first passage that does not fit. -/
theorem exists_truncated_succ (balanced : Balanced program.toList)
    (unbounded : console.output.capacity = none)
    (fits : ((program.transcript options tape console signals budget).flatMap
      Passage.bytes).length ≤ room)
    (tight : room < ((program.transcript options tape console signals (budget + 1)).flatMap
      Passage.bytes).length) :
    ∃ author count final,
      program.Truncated options tape console signals room (budget + 1) author count final := by
  have size := @size_written program options tape console signals unbounded
  have abreast := @executeAmid_withCapacity_of_le program options tape console signals _ _
    unbounded fits
  by_cases going : ∃ run, program.executeAmid options tape console signals budget = running run
  · rcases going with ⟨run, reached⟩
    have written := @accepted_of_unbounded program options tape console signals unbounded budget
    have bounds := capacity_executeAmid program options tape console signals budget
    have held := size budget
    rw [reached] at written bounds held abreast
    have free : (run.signalled signals).console.output.capacity = none := bounds.trans unbounded
    have sum : (run.signalled signals).console.output.accepted.size = _ := held
    have grown := transcript_succ_of_running reached
    have longer := tight
    rw [grown, List.flatMap_append, List.flatMap_singleton, List.length_append] at longer
    rcases Passage.cut_last fits longer with ⟨attributed, beginning⟩
    rcases @Run.advance_withCapacity_of_lt (run.signalled signals) options program
      (console.output.accepted.size + room) (by omega) (by omega) with
      ⟨final, ends, accepted, shown, unread⟩
    have loud : ((run.signalled signals).passage options program).bytes ≠ [] := by
      intro silent
      rw [silent, List.length_nil] at longer
      omega
    rcases Run.shown_of_unbounded free loud with ⟨measured, untouched⟩
    have place : run.machine.position ≤ program.size := inside_of_executeAmid balanced reached
    have reported : ((run.signalled signals).passage options program).author.position program =
        run.machine.position := Run.position_passage place
    refine ⟨_, budget + 1, final, grown ▸ attributed, ?_, ?_, Nat.le_refl _, ?_, ?_, ?_, ?_⟩
    · rw [executeAmid_succ_of_running abreast, reported]
      exact ends
    · have held : (run.signalled signals).console.output.accepted.toList = _ := written
      rw [accepted, grown, beginning, held, sum, Nat.add_sub_add_left, List.append_assoc]
    · rw [size]
      exact Nat.add_lt_add_left tight _
    · intro earlier less
      rw [size]
      exact Nat.add_le_add_left
        (Nat.le_trans (length_transcript_le (Nat.le_of_lt_succ less)) fits) _
    · rw [shown, executeAmid_succ_of_running reached, measured]
    · rw [unread, executeAmid_succ_of_running reached, untouched]
  · rw [transcript_succ_of_over (not_exists.mp going)] at tight
    exact absurd fits (Nat.not_le_of_lt tight)

theorem exists_truncated (balanced : Balanced program.toList)
    (unbounded : console.output.capacity = none)
    (tight : room < ((program.transcript options tape console signals budget).flatMap
      Passage.bytes).length) :
    ∃ author count final,
      program.Truncated options tape console signals room budget author count final := by
  induction budget with
  | zero => exact exists_truncated_zero unbounded tight
  | succ budget ih =>
    by_cases earlier : room < ((program.transcript options tape console signals budget).flatMap
      Passage.bytes).length
    · rcases ih earlier with ⟨author, count, final, cut⟩
      exact ⟨author, count, final, cut.succ⟩
    · exact exists_truncated_succ balanced unbounded (Nat.le_of_not_lt earlier) tight

/-- A sink that fills up truncates the output and changes nothing else.  The
unlimited run writes its whole transcript.  If there is room for all of it,
the limited run is the same.  Otherwise the limited run fails at the author
of the first byte that finds no room, what it has written is the output up to
that byte, and it is left with the tape and the input of the unlimited run at
the moment when that byte is written. -/
theorem executeAmid_withCapacity {source : String} (read : parse source = .ok program)
    (options : Options) (tape : Tape) (unbounded : console.output.capacity = none)
    (signals : Signals) (room budget : Nat) :
    let output := (program.transcript options tape console signals budget).flatMap Passage.bytes
    let limited := withCapacity (console.output.accepted.size + room)
    (program.executeAmid options tape console signals budget).written.toList =
      console.output.accepted.toList ++ output ∧
    (output.length ≤ room →
      program.executeAmid options tape (limited console) signals budget =
        (program.executeAmid options tape console signals budget).onConsole limited) ∧
    (room < output.length →
      ∃ author count final,
        program.Truncated options tape console signals room budget author count final) := by
  intro output limited
  exact ⟨accepted_of_unbounded unbounded budget, executeAmid_withCapacity_of_le unbounded,
    exists_truncated (balanced_of_parse read) unbounded⟩

/-- With room for four bytes the second number is cut in the middle, with
room for twenty nothing is. -/
theorem withCapacity_in_second_number :
    ∃ program count final, parse "+.+." = .ok program ∧
      ({} : Console).output.capacity = none ∧
      4 < ((program.transcript { mode := .numeric } ⟨#[11], 0, by decide⟩ {} .silent 5).flatMap
        Passage.bytes).length ∧
      program.Truncated { mode := .numeric } ⟨#[11], 0, by decide⟩ {} .silent 4 5
        (.instruction 3) count final ∧
      final.console.output.accepted.toList = [49, 50, 32, 49] ∧
      final.machine.tape.cells = #[13] ∧
      program.executeAmid { mode := .numeric } ⟨#[11], 0, by decide⟩ (withCapacity 20 {})
          .silent 5 =
        (program.executeAmid { mode := .numeric } ⟨#[11], 0, by decide⟩ {} .silent 5).onConsole
          (withCapacity 20) := by
  have read : parse "+.+." = .ok #[.command .increment, .command .output, .command .increment,
      .command .output] := rfl
  have law := @executeAmid_withCapacity _ {} "+.+." read { mode := .numeric }
    ⟨#[11], 0, by decide⟩ rfl .silent
  rcases (law 4 5).2.2 (by decide) with ⟨author, count, final, cut⟩
  have same : author = .instruction 3 := Option.some.inj (cut.attributed.symm.trans rfl)
  subst same
  have left := congrArg (fun progress => progress.run.machine.tape.cells) cut.ends
  exact ⟨_, count, final, read, rfl, by decide, cut, cut.accepted, left.symm.trans rfl,
    (law 20 5).2.1 (by decide)⟩

end Program
end RingTape
