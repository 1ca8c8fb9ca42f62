import RingTape.Proofs.Printing
import RingTape.Proofs.Tracing

namespace RingTape

/-!
# Output can be read back

The text of printed cells determines the cells: a reader who knows the mode
finds them again, and no others (`Mode.shows_text`, `Mode.Shows.unique`).  So
what a real run has written in front of its notice says which cells it
printed.  The notice is taken off by its length and not by its look, since
the cells themselves may spell out the same characters.

Two modes render the same cells differently and have no other influence on a
program that reads nothing.  On consoles on which no write fails or raises
the flag, the runs in both modes go in step (`Run.inStep_advance`).
-/

namespace Mode

/-! ## Reading a text back -/

/-- A cell is the code of the character that it is rendered as. -/
theorem toNat_ofNat (cell : UInt8) : (Char.ofNat cell.toNat).toNat = cell.toNat := by
  have small : cell.toNat < 256 := cell.toNat_lt
  have valid : cell.toNat.isValidChar := .inl (by omega)
  rw [Char.ofNat, dif_pos valid]
  rfl

theorem codes_text_character (cells : List UInt8) :
    (text .character cells).toList.map Char.toNat = cells.map UInt8.toNat := by
  induction cells with
  | nil => rfl
  | cons cell cells ih =>
    have first : (text .character [cell]).toList = [Char.ofNat cell.toNat] := by
      simp [text, render]
    rw [← List.singleton_append, text_append_of_character, String.toList_append, List.map_append,
      ih, first, List.map_singleton, toNat_ofNat, List.map_append, List.map_singleton]

theorem splitOn_text_numeric {cells : List UInt8} (some : cells ≠ []) :
    List.splitOn ' ' (text .numeric cells).toList =
      cells.map fun cell => Text.numeral cell.toNat := by
  have rendered : (text .numeric cells).toList =
      List.intercalate [' '] (cells.map fun cell => Text.numeral cell.toNat) := by
    rw [text, String.toList_intercalate, List.map_map]
    have digits : String.toList ∘ render .numeric = fun cell => Text.numeral cell.toNat :=
      funext fun cell => String.toList_ofList
    rw [digits]
    rfl
  rw [rendered]
  refine List.splitOn_intercalate _ ?_ (by simpa using some)
  intro numeral member
  rcases List.mem_map.mp member with ⟨cell, _, rfl⟩
  exact Text.notMem_numeral (by decide) cell.toNat

theorem text_eq_empty_iff_of_numeric {cells : List UInt8} :
    Text.encode (text .numeric cells) = [] ↔ cells = [] := by
  constructor
  · intro nothing
    have empty : text .numeric cells = "" := by
      have read := Text.decode?_encode (text .numeric cells)
      rw [nothing] at read
      exact (Option.some.inj read).symm
    by_cases some : cells = []
    · exact some
    · -- The first piece of an empty text is empty, and no numeral is.
      have cut := splitOn_text_numeric some
      rcases List.exists_cons_of_ne_nil some with ⟨cell, rest, rfl⟩
      rw [empty] at cut
      exact absurd (List.cons.inj cut).1.symm (Text.numeral_ne_nil cell.toNat)
  · rintro rfl
    rfl

/-- A reader finds the cells that were rendered. -/
theorem shows_text (mode : Mode) (cells : List UInt8) :
    mode.Shows (Text.encode (mode.text cells)) cells := by
  cases mode with
  | character => exact ⟨_, Text.decode?_encode _, codes_text_character cells⟩
  | numeric =>
    refine ⟨text_eq_empty_iff_of_numeric, fun some => ?_⟩
    have cut := splitOn_text_numeric some
    refine ⟨_, Text.decode?_encode _, ?_, cut⟩
    rw [cut, List.mem_map]
    rintro ⟨cell, _, nothing⟩
    exact Text.numeral_ne_nil cell.toNat nothing

/-- A reader finds nothing else. -/
theorem Shows.unique {mode : Mode} {written cells others : List UInt8}
    (one : mode.Shows written cells) (other : mode.Shows written others) : others = cells := by
  cases mode with
  | character =>
    rcases one with ⟨text, read, codes⟩
    rcases other with ⟨text', read', codes'⟩
    cases read.symm.trans read'
    exact (List.map_inj_right fun _ _ => UInt8.toNat_inj.mp).mp (codes'.symm.trans codes)
  | numeric =>
    by_cases none : cells = []
    · rw [none]
      exact other.1.mp (one.1.mpr none)
    · have some : others ≠ [] := fun nothing => none (one.1.mp (other.1.mpr nothing))
      rcases one.2 none with ⟨text, read, _, cut⟩
      rcases other.2 some with ⟨text', read', _, cut'⟩
      cases read.symm.trans read'
      refine (List.map_inj_right fun first second same => ?_).mp (cut'.symm.trans cut)
      have denoted := congrArg Text.natural? same
      rw [Text.natural?_numeral, Text.natural?_numeral] at denoted
      exact UInt8.toNat_inj.mp (Option.some.inj denoted)

end Mode

/-! ## Two modes side by side -/

/-- The same options with another mode. -/
def Options.withMode (options : Options) (mode : Mode) : Options :=
  { options with mode := mode }

namespace Console

/-- Two consoles on which no write fails or raises the flag, whose flags are
the same and that have as many flushes left. -/
structure InStep (first second : Console) : Prop where
  stopped : first.stopped = second.stopped
  flushesLeft : first.output.flushesLeft = second.output.flushesLeft
  unbounded : first.output.capacity = none ∧ second.output.capacity = none
  unraised : first.stopAfter = none ∧ second.stopAfter = none

variable {first second : Console}

/-- It does not matter which texts are written. -/
theorem InStep.write (inStep : first.InStep second) (one other : String) :
    ∃ after after', first.write one = (.ok (), after) ∧ second.write other = (.ok (), after') ∧
      after.InStep after' := by
  have calm (console : Console) (unraised : console.stopAfter = none) (text : String) :
      (console.write text).2.stopped = console.stopped := by
    change (console.stopped || raisesStop console.stopAfter _ _) = console.stopped
    rw [unraised]
    exact Bool.or_false _
  refine ⟨_, _, Prod.ext (write_fst_of_unbounded inStep.unbounded.1 one) rfl,
    Prod.ext (write_fst_of_unbounded inStep.unbounded.2 other) rfl, ?_, inStep.flushesLeft,
    inStep.unbounded, inStep.unraised⟩
  rw [calm _ inStep.unraised.1, calm _ inStep.unraised.2, inStep.stopped]

theorem InStep.flush (inStep : first.InStep second) :
    first.flush.1 = second.flush.1 ∧ first.flush.2.InStep second.flush.2 := by
  have sinks : first.output.flush.1 = second.output.flush.1 ∧
      first.output.flush.2.flushesLeft = second.output.flush.2.flushesLeft := by
    simp only [Sink.flush, inStep.flushesLeft]
    split
    · exact ⟨rfl, inStep.flushesLeft⟩
    · exact ⟨rfl, rfl⟩
    · exact ⟨rfl, rfl⟩
  constructor
  · change (if first.output.flush.1 then Except.ok () else .error DeviceFailure.flushFailed) =
      if second.output.flush.1 then .ok () else .error .flushFailed
    rw [sinks.1]
  · exact ⟨inStep.stopped, sinks.2,
      ⟨(Sink.capacity_flush _).trans inStep.unbounded.1,
        (Sink.capacity_flush _).trans inStep.unbounded.2⟩, inStep.unraised⟩

theorem InStep.conclude (inStep : first.InStep second) :
    first.conclude.1 = second.conclude.1 := by
  rcases inStep.write completionNotice completionNotice with ⟨after, after', one, other, still⟩
  rw [Console.conclude, Console.conclude, one, other]
  exact still.flush.1

/-- An instruction that reads nothing gets the same answer in both modes. -/
theorem InStep.supply (inStep : first.InStep second) {instruction : Instruction}
    (quiet : instruction ≠ .command .input) (one other : Mode) (prompt : Option String)
    (cell : UInt8) :
    ∃ after after', first.supply one prompt instruction cell = (.ok cell, after) ∧
      second.supply other prompt instruction cell = (.ok cell, after') ∧
      after.InStep after' := by
  cases instruction with
  | loopStart => exact ⟨first, second, rfl, rfl, inStep⟩
  | loopEnd => exact ⟨first, second, rfl, rfl, inStep⟩
  | command action =>
    cases action with
    | input => exact absurd rfl quiet
    | output =>
      rcases inStep.write (first.emission one cell) (second.emission other cell) with
        ⟨after, after', written, written', still⟩
      exact ⟨_, _, supply_output_of_ok written, supply_output_of_ok written',
        still.stopped, still.flushesLeft, still.unbounded, still.unraised⟩
    | moveLeft => exact ⟨first, second, rfl, rfl, inStep⟩
    | moveRight => exact ⟨first, second, rfl, rfl, inStep⟩
    | increment => exact ⟨first, second, rfl, rfl, inStep⟩
    | decrement => exact ⟨first, second, rfl, rfl, inStep⟩

end Console

/-- Two runs that stand at the same place, with consoles in step. -/
structure Run.InStep (first second : Run) : Prop where
  machine : first.machine = second.machine
  steps : first.steps = second.steps
  console : first.console.InStep second.console

/-- Two runs that go on in step, or that are over alike. -/
inductive Progress.InStep : Progress → Progress → Prop
  | running {first second : Run} (inStep : first.InStep second) :
    InStep (running first) (running second)
  | ended (how : Ending) {first second : Run} (machine : first.machine = second.machine)
    (steps : first.steps = second.steps) :
    InStep (ended how first) (ended how second)
  | stuck (why : Stuck) {first second : Run} (machine : first.machine = second.machine)
    (steps : first.steps = second.steps) :
    InStep (stuck why first) (stuck why second)

/-- Nothing but their consoles tells them apart. -/
theorem Progress.InStep.bare_eq {first second : Progress} (inStep : first.InStep second) :
    first.bare = second.bare := by
  cases inStep with
  | running inStep => simp only [bare, inStep.machine, inStep.steps]
  | ended how machine steps => simp only [bare, machine, steps]
  | stuck why machine steps => simp only [bare, machine, steps]

/-- One of them is over if the other is. -/
theorem Progress.InStep.ne_running {first second : Progress} (inStep : first.InStep second)
    (stops : ∀ run, first ≠ Progress.running run) (run : Run) :
    second ≠ Progress.running run := by
  cases inStep with
  | running inStep => exact absurd rfl (stops _)
  | ended how machine steps => intro goes; cases goes
  | stuck why machine steps => intro goes; cases goes

namespace Run

variable {first second : Run} {options : Options} {program : Program} {one other : Mode}

section Instructions

variable {machine : Machine} {steps : Nat} {console console' : Console}

/-- A row is written in both modes, whatever it says. -/
theorem inStep_trace (consoles : console.InStep console') (instruction : Instruction) :
    (trace ⟨machine, steps, console⟩ (options.withMode one) program instruction).InStep
      (trace ⟨machine, steps, console'⟩ (options.withMode other) program instruction) := by
  cases stepped : machine.step program instruction 0 with
  | error reason =>
    rw [trace_of_stuck stepped, trace_of_stuck stepped]
    exact .stuck reason rfl rfl
  | ok next =>
    rcases consoles.write
      (rowText ⟨machine, steps, console⟩ (options.withMode one) instruction next)
      (rowText ⟨machine, steps, console'⟩ (options.withMode other) instruction next) with
      ⟨after, after', written, written', still⟩
    rw [trace_of_ok stepped written, trace_of_ok stepped written']
    exact .running ⟨rfl, rfl, still⟩

/-- An instruction that reads nothing has the same effect in both modes. -/
theorem inStep_perform (consoles : console.InStep console') {instruction : Instruction}
    (quiet : instruction ≠ .command .input) :
    (perform ⟨machine, steps, console⟩ (options.withMode one) program instruction).InStep
      (perform ⟨machine, steps, console'⟩ (options.withMode other) program instruction) := by
  rcases consoles.supply quiet one other options.prompt machine.tape.current with
    ⟨after, after', answer, answer', still⟩
  cases stepped : machine.step program instruction machine.tape.current with
  | error reason =>
    rw [perform_of_stuck answer stepped, perform_of_stuck answer' stepped]
    exact .stuck reason rfl rfl
  | ok next =>
    rw [perform_of_ok answer stepped, perform_of_ok answer' stepped]
    exact .running ⟨rfl, rfl, still⟩

end Instructions

/-- What one step preserves. -/
theorem inStep_advance (inStep : first.InStep second) (silent : .command .input ∉ program) :
    (first.advance (options.withMode one) program).InStep
      (second.advance (options.withMode other) program) := by
  rcases first with ⟨machine, steps, console⟩
  rcases second with ⟨machine', steps', console'⟩
  rcases inStep with ⟨sameMachine, sameSteps, consoles⟩
  cases sameMachine
  cases sameSteps
  cases here : program[machine.position]? with
  | none =>
    rw [advance_of_none here, advance_of_none here, finish_eq, finish_eq]
    simp only [consoles.conclude]
    exact .ended _ rfl rfl
  | some instruction =>
    cases free : console'.stopped with
    | true =>
      have raised : console.stopped = true := consoles.stopped.trans free
      rw [advance_of_stopped here raised, advance_of_stopped here free, interrupt_eq,
        interrupt_eq]
      simp only [consoles.flush.1]
      exact .ended _ rfl rfl
    | false =>
      have down : console.stopped = false := consoles.stopped.trans free
      cases room : exhaustedLimit ⟨machine, steps, console'⟩ (options.withMode other) with
      | some limit =>
        have full : exhaustedLimit ⟨machine, steps, console⟩ (options.withMode one) =
          some limit := room
        rw [advance_of_limit here down full, advance_of_limit here free room]
        exact .ended _ rfl rfl
      | none =>
        have left : exhaustedLimit ⟨machine, steps, console⟩ (options.withMode one) = none := room
        cases traced : options.traced with
        | true =>
          rw [advance_of_traced here down left traced, advance_of_traced here free room traced]
          exact inStep_trace consoles instruction
        | false =>
          rw [advance_of_untraced here down left traced,
            advance_of_untraced here free room traced]
          refine inStep_perform consoles ?_
          rintro rfl
          exact silent (Array.mem_of_getElem? here)

/-- Two runs in step print the same cell next, or both none. -/
theorem prints_of_inStep (inStep : first.InStep second) (silent : .command .input ∉ program) :
    first.prints (options.withMode one) program =
      second.prints (options.withMode other) program := by
  have together := @inStep_advance first second options program one other inStep silent
  by_cases going : ∃ next, first.advance (options.withMode one) program = .running next
  · rcases going with ⟨next, goes⟩
    rw [goes] at together
    generalize goes' : second.advance (options.withMode other) program = progress at together
    cases together with
    | running _ =>
      rcases advance_eq_running goes with ⟨instruction, _, here, _, _⟩
      have there : program[second.machine.position]? = some instruction := inStep.machine ▸ here
      rw [prints_of_running here goes, prints_of_running there goes', inStep.machine]
  · have stops := not_exists.mp going
    rw [prints_of_over stops, prints_of_over (together.ne_running stops)]

/-- Both runs begin in the same way, since the modes do not matter yet. -/
theorem inStep_begin {console : Console} (unbounded : console.output.capacity = none)
    (unraised : console.stopAfter = none) (options : Options) (tape : Tape) (one other : Mode) :
    (begin (options.withMode one) tape console).InStep
      (begin (options.withMode other) tape console) := by
  have fresh : ({ console with emitted := 0 } : Console).InStep { console with emitted := 0 } :=
    ⟨rfl, rfl, ⟨unbounded, unbounded⟩, ⟨unraised, unraised⟩⟩
  change (begin options tape console).InStep (begin options tape console)
  apply begin_cases (motive := fun progress => progress.InStep progress)
  · intro _
    exact .running ⟨rfl, rfl, fresh⟩
  · intro failure after _ _
    exact .ended _ rfl rfl
  · intro after _ answer
    rcases fresh.write Trace.header Trace.header with ⟨first, second, written, written', still⟩
    cases answer.symm.trans written
    cases answer.symm.trans written'
    exact .running ⟨rfl, rfl, still⟩

end Run

namespace Program

open Progress (running ended)

/-! ## The output of a whole run -/

variable {program : Program} {options : Options} {tape : Tape} {console : Console}
  {signals : Signals} {budget : Nat} {how : Ending} {final : Run}

theorem printedAmid_succ_of_running {run : Run}
    (goes : program.executeAmid options tape console signals budget = running run) :
    program.printedAmid options tape console signals (budget + 1) =
      program.printedAmid options tape console signals budget ++
        (run.signalled signals).prints options program := by
  rw [printedAmid, goes]

theorem printedAmid_succ_of_over
    (stops : ∀ run, program.executeAmid options tape console signals budget ≠ running run) :
    program.printedAmid options tape console signals (budget + 1) =
      program.printedAmid options tape console signals budget := by
  rw [printedAmid]
  cases reached : program.executeAmid options tape console signals budget with
  | running run => exact absurd reached (stops run)
  | ended how final => exact List.append_nil _
  | stuck why final => exact List.append_nil _

/-- At every moment a real run has written the text of the cells that it has
printed so far. -/
theorem wrote_of_running (untraced : options.traced = false) {run : Run}
    (goes : program.executeAmid options tape console signals budget = running run) :
    run.Wrote options.mode console.output.accepted.toList
      (program.printedAmid options tape console signals budget) := by
  induction budget generalizing run with
  | zero =>
    rw [executeAmid_zero, Run.begin_of_untraced untraced] at goes
    cases goes
    exact Run.wrote_begin options.mode
  | succ budget ih =>
    rcases exists_before_of_running goes with ⟨before, reached, step⟩
    rw [printedAmid_succ_of_running reached]
    have wrote := ih reached
    have signalled : (before.signalled signals).Wrote options.mode _ _ :=
      ⟨wrote.accepted, wrote.emitted⟩
    exact signalled.advance untraced step

/-- A real run that no device cuts short has written the text of its cells,
and then its notice. -/
theorem accepted_of_sound (untraced : options.traced = false)
    (ends : program.executeAmid options tape console signals budget = ended how final)
    (sound : ∀ position failure, how ≠ .failed (.device position failure)) :
    final.console.output.accepted.toList =
      console.output.accepted.toList ++
        Text.encode (options.mode.text (program.printedAmid options tape console signals budget)) ++
        Text.encode how.notice := by
  induction budget with
  | zero =>
    rw [executeAmid_zero, Run.begin_of_untraced untraced] at ends
    cases ends
  | succ budget ih =>
    by_cases going : ∃ run, program.executeAmid options tape console signals budget = running run
    · rcases going with ⟨run, reached⟩
      rw [executeAmid_succ_of_running reached] at ends
      have wrote := wrote_of_running untraced reached
      have signalled : (run.signalled signals).Wrote options.mode _ _ :=
        ⟨wrote.accepted, wrote.emitted⟩
      have whole := Run.write_of_advance_sound ends sound
      rw [printedAmid_succ_of_running reached, Run.prints_of_ended ends, List.append_nil,
        List.append_assoc, ← Text.encode_append, signalled.accepted_of_whole whole ends]
      rcases Run.text_passage_of_ended untraced whole ends with notice | ⟨failure, _, failed⟩
      · rw [notice]
      · exact absurd failed (sound _ _)
    · have stops := not_exists.mp going
      rw [executeAmid_succ_of_over stops] at ends
      rw [printedAmid_succ_of_over stops]
      exact ih ends

/-- What a whole run preserves: in both modes it goes the same way and prints
the same cells. -/
theorem inStep_executeAmid (silent : .command .input ∉ program)
    (unbounded : console.output.capacity = none) (unraised : console.stopAfter = none)
    (options : Options) (tape : Tape) (signals : Signals) (budget : Nat) (one other : Mode) :
    (program.executeAmid (options.withMode one) tape console signals budget).InStep
        (program.executeAmid (options.withMode other) tape console signals budget) ∧
      program.printedAmid (options.withMode one) tape console signals budget =
        program.printedAmid (options.withMode other) tape console signals budget := by
  induction budget with
  | zero =>
    rw [executeAmid_zero, executeAmid_zero]
    exact ⟨Run.inStep_begin unbounded unraised options tape one other, rfl⟩
  | succ budget ih =>
    rcases ih with ⟨together, printed⟩
    by_cases going : ∃ run,
      program.executeAmid (options.withMode one) tape console signals budget = running run
    · rcases going with ⟨first, reached⟩
      rw [reached] at together
      generalize reached' :
        program.executeAmid (options.withMode other) tape console signals budget = progress
          at together
      cases together with
      | @running _ second inStep =>
        have signalled : (first.signalled signals).InStep (second.signalled signals) := by
          refine ⟨inStep.machine, inStep.steps, ?_, inStep.console.flushesLeft,
            inStep.console.unbounded, inStep.console.unraised⟩
          simp only [Run.signalled, inStep.console.stopped, inStep.steps]
        rw [executeAmid_succ_of_running reached, executeAmid_succ_of_running reached',
          printedAmid_succ_of_running reached, printedAmid_succ_of_running reached', printed,
          Run.prints_of_inStep signalled silent]
        exact ⟨Run.inStep_advance signalled silent, rfl⟩
    · have stops := not_exists.mp going
      have stops' := together.ne_running stops
      rw [executeAmid_succ_of_over stops, executeAmid_succ_of_over stops',
        printedAmid_succ_of_over stops, printedAmid_succ_of_over stops']
      exact ⟨together, printed⟩

/-- Output can be decoded.  What a real run has written, less its notice,
shows exactly the cells that its output instructions met, in order, unless a
device has cut it short.  And in a program that reads nothing the mode has no
other influence than this: the runs in both modes are at the same place after
as many instructions, over or not, and have printed the same cells. -/
theorem output_shows_printed (program : Program) (options : Options) (tape : Tape)
    (console : Console) (signals : Signals) (budget : Nat) :
    (∀ how final, options.traced = false →
      program.executeAmid options tape console signals budget = ended how final →
      (∀ position failure, how ≠ .failed (.device position failure)) →
        ∃ written,
          final.console.output.accepted.toList =
              console.output.accepted.toList ++ written ++ Text.encode how.notice ∧
            options.mode.Shows written
              (program.printedAmid options tape console signals budget) ∧
            ∀ others, options.mode.Shows written others →
              others = program.printedAmid options tape console signals budget) ∧
      (.command .input ∉ program → console.output.capacity = none → console.stopAfter = none →
        (program.executeAmid (options.withMode .character) tape console signals budget).bare =
            (program.executeAmid (options.withMode .numeric) tape console signals budget).bare ∧
          program.printedAmid (options.withMode .character) tape console signals budget =
            program.printedAmid (options.withMode .numeric) tape console signals budget) := by
  constructor
  · intro how final untraced ends sound
    have shows := options.mode.shows_text
      (program.printedAmid options tape console signals budget)
    exact ⟨_, accepted_of_sound untraced ends sound, shows, fun others => shows.unique⟩
  · intro silent unbounded unraised
    rcases inStep_executeAmid silent unbounded unraised options tape signals budget
      .character .numeric with ⟨together, printed⟩
    exact ⟨together.bare_eq, printed⟩

/-- The first cell takes two bytes as a character.  The second one is a line
feed, so that the notice seems to begin early. -/
theorem shown_before_notice :
    ∃ program final, parse ".>." = .ok program ∧ .command .input ∉ program ∧
      program.executeAmid {} ⟨#[200, 10], 0, by decide⟩ {} .silent 4 = ended .completed final ∧
      final.console.output.accepted.toList = [195, 136, 10] ++ Text.encode "\nDone!\n" ∧
      Mode.Shows .character [195, 136, 10] [200, 10] ∧
      (program.executeAmid { mode := .numeric } ⟨#[200, 10], 0, by decide⟩ {} .silent 4).bare =
        (ended .completed final).bare ∧
      program.printedAmid { mode := .numeric } ⟨#[200, 10], 0, by decide⟩ {} .silent 4 =
        [200, 10] := by
  have read : parse ".>." =
      .ok #[.command .output, .command .moveRight, .command .output] := rfl
  have silent : Instruction.command .input ∉
      #[Instruction.command .output, .command .moveRight, .command .output] := by simp
  have laws := output_shows_printed #[.command .output, .command .moveRight, .command .output] {}
    ⟨#[200, 10], 0, by decide⟩ {} .silent 4
  rcases laws.1 _ _ rfl rfl (fun _ _ failed => by cases failed) with
    ⟨written, accepted, shows, _⟩
  rcases laws.2 silent rfl rfl with ⟨alike, printed⟩
  have bytes : written = [195, 136, 10] := List.append_cancel_right accepted.symm
  subst bytes
  exact ⟨_, _, read, silent, rfl, accepted, shows, alike.symm, printed.symm⟩

end Program
end RingTape
