import RingTape.Proofs.Relocation

namespace RingTape

/-!
# Running two programs in turn

Two programs written one behind the other do together what they do in turn.
The run of both begins with the steps of the first one, on the very same
machine and console.  Once the first one has no instruction left, its run
writes the notice and a second run begins; the run of both just goes on.  It
follows the second run from there, on a console that has received other
output and counts other cells, but reads the same.

So the output of the two ways is compared by the cells that were printed,
not by what a sink holds: a number that comes first in its run has no space
in front of it, and the same number has one if the run of both has printed
something before.
-/

namespace Program

variable {first second : Program}

/-- The instructions of a text are those of its parts. -/
theorem parse_append {firstSource secondSource : String}
    (firstRead : parse firstSource = .ok first) (secondRead : parse secondSource = .ok second) :
    parse (firstSource ++ secondSource) = .ok (first ++ second) := by
  rcases parse_eq_ok_iff.mp firstRead with ⟨firstBalanced, firstWritten⟩
  rcases parse_eq_ok_iff.mp secondRead with ⟨secondBalanced, secondWritten⟩
  rw [parse_eq_ok_iff, String.toList_append, List.filterMap_append, Array.toList_append,
    firstWritten, secondWritten]
  exact ⟨firstBalanced.append secondBalanced, rfl⟩

theorem embeds_append_left (first second : Program) : Embeds id first (first ++ second) where
  carries here := by
    rcases Array.getElem?_eq_some_iff.mp here with ⟨inside, _⟩
    rw [id, Array.getElem?_append_left inside, here]
  seam _ := .tight rfl

theorem embeds_append_right (first second : Program) :
    Embeds (first.size + ·) second (first ++ second) where
  carries here := by
    rw [Array.getElem?_append_right (Nat.le_add_right _ _), Nat.add_sub_cancel_left, here]
  seam _ := .tight rfl

theorem getElem?_append_size (first second : Program) :
    (first ++ second)[first.size + second.size]? = none :=
  Array.getElem?_eq_none (Nat.le_of_eq Array.size_append)

end Program

/-- Two consoles on which nothing fails, with the same left to read. -/
structure Console.Agrees (console other : Console) : Prop where
  good : console.Undisturbed
  otherGood : other.Undisturbed
  input : other.input = console.input
  prompts : other.prompts = console.prompts

namespace Console

variable {console other : Console}

theorem agrees_self (good : console.Undisturbed) : console.Agrees console :=
  ⟨good, good, rfl, rfl⟩

/-- An operation that does nothing but write, flush and count cells. -/
def OnlyOutputs (operation : Console → Console) : Prop :=
  ∀ Keeps, OutputLaw Keeps → ∀ console, Keeps console (operation console)

/-- Output changes nothing that two consoles have to agree on. -/
theorem Agrees.outputs (agrees : console.Agrees other) {operation operation' : Console → Console}
    (only : OnlyOutputs operation) (only' : OnlyOutputs operation') :
    (operation console).Agrees (operation' other) := by
  rcases only _ law_untouched console with ⟨input, prompts⟩
  rcases only' _ law_untouched other with ⟨input', prompts'⟩
  exact ⟨only _ law_undisturbed.toOutputLaw console agrees.good,
    only' _ law_undisturbed.toOutputLaw other agrees.otherGood,
    by rw [input, input', agrees.input], by rw [prompts, prompts', agrees.prompts]⟩

theorem Agrees.ask (agrees : console.Agrees other) (prompt : Option String) :
    (console.ask prompt).Agrees (other.ask prompt) := by
  refine ⟨law_undisturbed.ask console prompt agrees.good,
    law_undisturbed.ask other prompt agrees.otherGood, ?_, ?_⟩
  · cases prompt <;> exact agrees.input
  · cases prompt with
    | none => exact agrees.prompts
    | some text => exact congrArg (· + 1) agrees.prompts

theorem Agrees.receive (agrees : console.Agrees other) (mode : Mode) :
    (other.receive mode).1 = (console.receive mode).1 ∧
      (console.receive mode).2.Agrees (other.receive mode).2 := by
  constructor
  · simp only [Console.receive, agrees.input]
  · refine ⟨law_undisturbed.receive console mode agrees.good,
      law_undisturbed.receive other mode agrees.otherGood, ?_, agrees.prompts⟩
    simp only [Console.receive, agrees.input]

theorem Agrees.read (agrees : console.Agrees other) (mode : Mode) (prompt : Option String) :
    (other.read mode prompt).1 = (console.read mode prompt).1 ∧
      (console.read mode prompt).2.Agrees (other.read mode prompt).2 := by
  have flushed : console.flush = (.ok (), console.flush.2) :=
    Prod.ext (flush_fst_of_reliable agrees.good.reliable) rfl
  have flushed' : other.flush = (.ok (), other.flush.2) :=
    Prod.ext (flush_fst_of_reliable agrees.otherGood.reliable) rfl
  have flushes : OnlyOutputs fun console => console.flush.2 := fun _ law => law.flush
  simp only [Console.read]
  rw [flushed, flushed']
  exact ((agrees.outputs flushes flushes).ask prompt).receive mode

theorem Agrees.supply_output (agrees : console.Agrees other) (mode : Mode)
    (prompt : Option String) (cell : UInt8) :
    (other.supply mode prompt (.command .output) cell).1 =
        (console.supply mode prompt (.command .output) cell).1 ∧
      (console.supply mode prompt (.command .output) cell).2.Agrees
        (other.supply mode prompt (.command .output) cell).2 := by
  have emitted : console.emit mode cell = (.ok (), (console.emit mode cell).2) :=
    Prod.ext (emit_fst_of_reliable agrees.good.reliable mode cell) rfl
  have emitted' : other.emit mode cell = (.ok (), (other.emit mode cell).2) :=
    Prod.ext (emit_fst_of_reliable agrees.otherGood.reliable mode cell) rfl
  have emits : OnlyOutputs fun console => (console.emit mode cell).2 :=
    fun _ law console => law.emit console mode cell
  simp only [Console.supply]
  rw [emitted, emitted']
  exact ⟨rfl, agrees.outputs emits emits⟩

/-- No operation tells consoles apart that agree. -/
theorem likeness_agrees : Likeness Agrees where
  free agrees := ⟨agrees.good.calm.stopped, agrees.otherGood.calm.stopped⟩
  supply := by
    intro console other agrees mode prompt instruction cell
    cases instruction with
    | loopStart => exact ⟨rfl, agrees⟩
    | loopEnd => exact ⟨rfl, agrees⟩
    | command action =>
      cases action with
      | output => exact agrees.supply_output mode prompt cell
      | input => exact agrees.read mode prompt
      | moveLeft => exact ⟨rfl, agrees⟩
      | moveRight => exact ⟨rfl, agrees⟩
      | increment => exact ⟨rfl, agrees⟩
      | decrement => exact ⟨rfl, agrees⟩
  conclude := by
    intro console other agrees
    have concludes : OnlyOutputs fun console => console.conclude.2 := fun _ law => law.conclude
    rw [conclude_fst_of_reliable agrees.good.reliable,
      conclude_fst_of_reliable agrees.otherGood.reliable]
    exact ⟨rfl, agrees.outputs concludes concludes⟩

end Console

theorem Machine.relocate_id (machine : Machine) : machine.relocate id = machine := by
  rw [relocate, List.map_id]
  rfl

theorem Ending.relocate_id (how : Ending) : how.relocate id = how := by
  rcases how with _ | _ | ⟨_ | _ | _⟩ <;> rfl

namespace Program

open Progress (running ended)
open Run (Follows)

variable {first second : Program} {options : Options} {tape : Tape} {console : Console}
  {cells more : List UInt8} {how : Ending} {middle final last : Run} {budget : Nat}

/-- The run that the second program begins where the first one has ended. -/
def secondStart (middle : Run) : Run :=
  ⟨.load middle.machine.tape, 0, { middle.console with emitted := 0 }⟩

theorem begin_second (unrestricted : options.Unrestricted) (middle : Run) :
    Run.begin options middle.machine.tape middle.console = running (secondStart middle) :=
  Run.begin_of_untraced unrestricted.untraced

section Seam

variable (firstBalanced : Balanced first.toList) (second) (unrestricted : options.Unrestricted)
  (good : console.Undisturbed)
include firstBalanced unrestricted good

/-- As long as the first program runs, the run of both goes along with it. -/
theorem exists_abreast {count : Nat}
    (goes : first.execute options tape console count = running last) :
    ∃ many after, (first ++ second).execute options tape console many = running after ∧
      (first ++ second).printed options tape console many =
        first.printed options tape console count ∧
      Follows Console.Same id last after ∧
      last.machine.Nested first ∧ last.console.Undisturbed := by
  have calm := Console.law_unstoppable.recount console 0 good.calm
  have start : Follows Console.Same id ⟨.load tape, 0, { console with emitted := 0 }⟩
      ⟨.load tape, 0, { console with emitted := 0 }⟩ := ⟨rfl, rfl, calm⟩
  simp only [execute, printed, Run.begin_of_untraced unrestricted.untraced] at goes ⊢
  rcases start.exists_running (embeds_append_left first second) Console.likeness_same unrestricted
    firstBalanced (Machine.nested_load first tape) goes with
    ⟨many, after, _, reached, prints, along, nested⟩
  exact ⟨many, after, reached, prints, along, nested,
    Console.law_undisturbed.of_iterate (Console.law_undisturbed.recount console 0 good) goes⟩

/-- If the first program fails, the run of both fails with it. -/
theorem finishes_append_of_failed {error : RunError}
    (fails : first.Finishes options tape console cells (.failed error) final) :
    ∃ whole, (first ++ second).Finishes options tape console cells (.failed error) whole ∧
      whole.machine = final.machine ∧ whole.console = final.console := by
  rcases exists_last_of_finishes unrestricted fails with ⟨count, last, reached, rfl, stops⟩
  rcases exists_abreast second firstBalanced unrestricted good reached with
    ⟨many, after, goes, prints, along, nested, still⟩
  cases here : first[last.machine.position]? with
  | none =>
    -- Nothing fails once the instructions are used up.
    rw [Run.advance_of_none here, Run.finish_eq,
      Console.conclude_fst_of_reliable still.reliable] at stops
    cases stops
  | some instruction =>
    rcases along.exists_refused (embeds_append_left first second) Console.likeness_same unrestricted
      here stops with ⟨whole, stopsThere, alike⟩
    rw [Ending.relocate_id] at stopsThere
    rw [← prints]
    exact ⟨whole, finishes_of_last goes stopsThere,
      alike.machine.trans (Machine.relocate_id _), alike.console.same⟩

/-- If it completes, the run of both stands where the second program begins,
and agrees with the second run. -/
theorem exists_seam (completes : first.Finishes options tape console cells .completed middle) :
    ∃ many after, (first ++ second).execute options tape console many = running after ∧
      (first ++ second).printed options tape console many = cells ∧
      Follows Console.Agrees (first.size + ·) (secondStart middle) after := by
  rcases exists_last_of_finishes unrestricted completes with ⟨count, last, reached, rfl, stops⟩
  rcases exists_abreast second firstBalanced unrestricted good reached with
    ⟨many, after, goes, prints, along, nested, still⟩
  rcases Run.finished_of_completed stops with ⟨done, rfl⟩
  have place := Nat.le_antisymm nested.inside (Array.getElem?_eq_none_iff.mp done)
  have closed : last.machine.openLoops = [] := by
    rw [nested.record, place]
    exact openAfter_of_size_le firstBalanced (Nat.le_refl _)
  refine ⟨many, after, goes, prints, ?_, ?_⟩
  · rw [along.machine, Machine.relocate_id, secondStart, Machine.load, Machine.relocate]
    rw [List.map_nil, Nat.add_zero, ← place, ← closed]
  · have concludes : Console.OnlyOutputs fun console => { console.conclude.2 with emitted := 0 } :=
      fun _ law console => law.trans (law.conclude console) (law.recount _ 0)
    rw [along.console.same]
    exact (Console.agrees_self still).outputs concludes fun _ law => law.refl

end Seam

section Both

variable (firstBalanced : Balanced first.toList) (secondBalanced : Balanced second.toList)
  (unrestricted : options.Unrestricted) (good : console.Undisturbed)
  (completes : first.Finishes options tape console cells .completed middle)
include firstBalanced secondBalanced unrestricted good completes

/-- However the second run ends, the run of both ends like that. -/
theorem finishes_append_of_completed
    (ends : second.Finishes options middle.machine.tape middle.console more how last) :
    ∃ whole, (first ++ second).Finishes options tape console (cells ++ more)
        (how.relocate (first.size + ·)) whole ∧
      Follows Console.Agrees (first.size + ·) last whole := by
  rcases exists_seam second firstBalanced unrestricted good completes with
    ⟨many, after, goes, rfl, along⟩
  rcases ends with ⟨budget, ends, rfl⟩
  rw [execute] at goes
  rw [execute, begin_second unrestricted] at ends
  rcases along.exists_ended (embeds_append_right first second) Console.likeness_agrees
    unrestricted secondBalanced (Machine.nested_load second _)
    (getElem?_append_size first second) ends with ⟨further, whole, reached, prints, alike⟩
  refine ⟨whole, ⟨many + further, ?_, ?_⟩, alike⟩
  · rw [execute, Progress.iterate_add, goes, reached]
  · rw [printed, Progress.printed_add, goes, prints, printed, printed,
      begin_second unrestricted]

/-- If the run of both ends, so does the second run. -/
theorem exists_finishes_of_append {whole : Run}
    (ends : (first ++ second).Finishes options tape console more how whole) :
    ∃ more how last,
      second.Finishes options middle.machine.tape middle.console more how last := by
  rcases exists_seam second firstBalanced unrestricted good completes with
    ⟨many, after, goes, _, along⟩
  rcases ends with ⟨budget, ends, _⟩
  have later : Progress.iterate options (first ++ second) budget (running after) =
      ended how whole := by
    rw [execute] at goes ends
    rw [← goes, ← Progress.iterate_add, Nat.add_comm, Progress.iterate_add, ends,
      Progress.iterate_ended]
  rcases along.exists_inner_ended (embeds_append_right first second) Console.likeness_agrees
    unrestricted secondBalanced (Machine.nested_load second _) later with ⟨how', last, stops⟩
  refine ⟨_, how', last, budget, ?_, rfl⟩
  rw [execute, begin_second unrestricted]
  exact stops

end Both

/-- In character mode the second output follows the first one as it is. -/
theorem accepted_of_character {whole : Run} (unrestricted : options.Unrestricted)
    (good : console.Undisturbed) (character : options.mode = .character)
    (completes : first.Finishes options tape console cells .completed middle)
    (ends : second.Finishes options middle.machine.tape middle.console more how last)
    (endsBoth : (first ++ second).Finishes options tape console (cells ++ more)
      (how.relocate (first.size + ·)) whole) :
    whole.console.output.accepted.toList =
      console.output.accepted.toList ++ Text.encode (options.mode.text cells) ++
        last.console.output.accepted.toList.drop middle.console.output.accepted.size := by
  have between := undisturbed_of_finishes good completes
  have appended : last.console.output.accepted.toList.drop middle.console.output.accepted.size =
      Text.encode (options.mode.text more ++ how.notice) := by
    rw [accepted_of_finishes unrestricted between ends]
    exact List.drop_left
  rw [accepted_of_finishes unrestricted good endsBoth, appended, Ending.notice_relocate, character,
    Mode.text_append_of_character, String.append_assoc, Text.encode_append, List.append_assoc]

/-- Two programs in turn and both at once.  If the first one fails, so do
both, at the same place and with the same tape and console.  If it
completes, the run of both ends exactly if the second run does, and then in
the same way, with the position of an error counted from the beginning of
both; the tape and what is left to read are the same.  The run of both
prints the cells of the two runs one after the other, and its output is the
text of all of them, where the two runs have written the text of their own
and the first one the notice. -/
theorem finishes_append {firstSource secondSource : String}
    (firstRead : parse firstSource = .ok first) (secondRead : parse secondSource = .ok second)
    (unrestricted : options.Unrestricted) (good : console.Undisturbed) (tape : Tape) :
    parse (firstSource ++ secondSource) = .ok (first ++ second) ∧
    (∀ cells error final,
      first.Finishes options tape console cells (.failed error) final →
        ∃ whole, (first ++ second).Finishes options tape console cells (.failed error) whole ∧
          whole.machine = final.machine ∧ whole.console = final.console) ∧
    ∀ cells middle, first.Finishes options tape console cells .completed middle →
      middle.console.output.accepted.toList =
          console.output.accepted.toList ++
            Text.encode (options.mode.text cells ++ Console.completionNotice) ∧
      ((∃ more how last,
          second.Finishes options middle.machine.tape middle.console more how last) ↔
        ∃ all how whole, (first ++ second).Finishes options tape console all how whole) ∧
      ∀ more how last,
        second.Finishes options middle.machine.tape middle.console more how last →
          ∃ whole, (first ++ second).Finishes options tape console (cells ++ more)
              (how.relocate (first.size + ·)) whole ∧
            whole.machine.tape = last.machine.tape ∧
            whole.console.input = last.console.input ∧
            whole.console.prompts = last.console.prompts ∧
            last.console.output.accepted.toList =
              middle.console.output.accepted.toList ++
                Text.encode (options.mode.text more ++ how.notice) ∧
            whole.console.output.accepted.toList =
              console.output.accepted.toList ++
                Text.encode (options.mode.text (cells ++ more) ++ how.notice) ∧
            (options.mode = .character →
              whole.console.output.accepted.toList =
                console.output.accepted.toList ++ Text.encode (options.mode.text cells) ++
                  last.console.output.accepted.toList.drop
                    middle.console.output.accepted.size) := by
  have firstBalanced := balanced_of_parse firstRead
  have secondBalanced := balanced_of_parse secondRead
  refine ⟨parse_append firstRead secondRead, ?_, ?_⟩
  · intro cells error final fails
    exact finishes_append_of_failed second firstBalanced unrestricted good fails
  · intro cells middle completes
    refine ⟨accepted_of_finishes unrestricted good completes, ⟨?_, ?_⟩, ?_⟩
    · rintro ⟨more, how, last, ends⟩
      rcases finishes_append_of_completed firstBalanced secondBalanced unrestricted good completes
        ends with ⟨whole, both, _⟩
      exact ⟨_, _, whole, both⟩
    · rintro ⟨all, how, whole, both⟩
      exact exists_finishes_of_append firstBalanced secondBalanced unrestricted good completes both
    · intro more how last ends
      rcases finishes_append_of_completed firstBalanced secondBalanced unrestricted good completes
        ends with ⟨whole, both, alike⟩
      have output := accepted_of_finishes unrestricted good both
      rw [Ending.notice_relocate] at output
      exact ⟨whole, both, alike.tape, alike.console.input, alike.console.prompts,
        accepted_of_finishes unrestricted (undisturbed_of_finishes good completes) ends, output,
        fun character => accepted_of_character unrestricted good character completes ends both⟩

/-- Two numbers, one from each program, and a failing read in the second. -/
theorem failing_read_behind_number :
    ∃ first second middle last whole,
      parse "+." = .ok first ∧ parse ".," = .ok second ∧
      parse ("+." ++ ".,") = .ok (first ++ second) ∧
      Options.Unrestricted { mode := .numeric } ∧ Console.Undisturbed {} ∧
      first.Finishes { mode := .numeric } ⟨#[0], 0, by decide⟩ {} [1] .completed middle ∧
      second.Finishes { mode := .numeric } middle.machine.tape middle.console [1]
        (.failed (.invalidInput 1 .numeric)) last ∧
      (first ++ second).Finishes { mode := .numeric } ⟨#[0], 0, by decide⟩ {} [1, 1]
        (.failed (.invalidInput 3 .numeric)) whole ∧
      whole.console.output.accepted.toList = Text.encode "1 1" := by
  have firstRead : parse "+." = .ok #[.command .increment, .command .output] := rfl
  have secondRead : parse ".," = .ok #[.command .output, .command .input] := rfl
  have unrestricted : Options.Unrestricted { mode := .numeric } := ⟨rfl, rfl⟩
  have good : Console.Undisturbed {} := ⟨⟨rfl, rfl⟩, ⟨rfl, rfl⟩⟩
  rcases finishes_append firstRead secondRead unrestricted good ⟨#[0], 0, by decide⟩ with
    ⟨read, _, completed⟩
  rcases completed [1] _ ⟨3, rfl, rfl⟩ with ⟨_, _, joined⟩
  rcases joined [1] (.failed (.invalidInput 1 .numeric)) _ ⟨2, rfl, rfl⟩ with
    ⟨whole, both, _, _, _, _, output, _⟩
  exact ⟨_, _, _, _, whole, firstRead, secondRead, read, unrestricted, good, ⟨3, rfl, rfl⟩,
    ⟨2, rfl, rfl⟩, both, output⟩

end Program
end RingTape
