import RingTape.Printing
import RingTape.Proofs.Structured
import RingTape.Proofs.Writing

namespace RingTape

/-!
# Output is the text of the printed cells

What a real run has written is the text of the cells it has printed so far,
each number behind a single space unless it is the first one of the run
(`Run.Wrote`).  The invariant needs no assumption on the sink: a run goes on
only if its passage was accepted as a whole.  On a console on which nothing
fails the same holds of the end, where the notice of a completed run follows
the cells (`Program.accepted_of_finishes`).
-/

namespace Mode

/-- One more cell comes behind a separator, if it is not the first. -/
theorem text_concat (mode : Mode) (cells : List UInt8) (cell : UInt8) :
    mode.text (cells ++ [cell]) =
      mode.text cells ++ ((if cells = [] then "" else mode.separator) ++ mode.render cell) := by
  by_cases first : cells = []
  · simp [text, first]
  · have earlier : cells.map mode.render ≠ [] := by simpa using first
    simp only [text, List.map_append, List.map_cons, List.map_nil, first, if_false,
      String.intercalate_append_of_ne_nil earlier (List.cons_ne_nil _ _),
      String.intercalate_singleton, String.append_assoc]

/-- Between two sequences of cells that are not empty there is exactly one
separator. -/
theorem text_append_of_ne_nil (mode : Mode) {first second : List UInt8}
    (earlier : first ≠ []) (later : second ≠ []) :
    mode.text (first ++ second) = mode.text first ++ mode.separator ++ mode.text second := by
  rw [text, List.map_append]
  exact String.intercalate_append_of_ne_nil (by simpa using earlier) (by simpa using later)

/-- Characters are written without anything between them. -/
theorem text_append_of_character (first second : List UInt8) :
    character.text (first ++ second) = character.text first ++ character.text second := by
  by_cases earlier : first = []
  · simp [text, earlier]
  · by_cases later : second = []
    · simp [text, later]
    · rw [text_append_of_ne_nil character earlier later, separator, String.append_empty]

end Mode

namespace Console

/-- The separator that output adds depends on how many cells there were. -/
theorem emission_of_emitted {console : Console} {cells : List UInt8}
    (counted : console.emitted = cells.length) (mode : Mode) (cell : UInt8) :
    console.emission mode cell =
      (if cells = [] then "" else mode.separator) ++ mode.render cell := by
  have untouched : console.emitted = 0 ↔ cells = [] := by
    rw [counted, List.length_eq_zero_iff]
  cases mode with
  | character => simp [emission, Mode.separator]
  | numeric => simp only [emission, untouched, Mode.separator]

theorem emitted_read (console : Console) (mode : Mode) (prompt : Option String) :
    (console.read mode prompt).2.emitted = console.emitted := by
  unfold read
  rcases answer : console.flush with ⟨failure | _, after⟩
  · exact congrArg (fun answer => answer.2.emitted) answer.symm
  · have flushed : after.emitted = console.emitted :=
      congrArg (fun answer => answer.2.emitted) answer.symm
    cases prompt <;> exact flushed

/-- Only output counts a cell. -/
theorem emitted_supply_of_quiet {instruction : Instruction}
    (quiet : instruction ≠ .command .output) (console : Console) (mode : Mode)
    (prompt : Option String) (cell : UInt8) :
    (console.supply mode prompt instruction cell).2.emitted = console.emitted := by
  cases instruction with
  | loopStart => rfl
  | loopEnd => rfl
  | command action =>
    cases action with
    | output => exact absurd rfl quiet
    | input => exact emitted_read console mode prompt
    | moveLeft => rfl
    | moveRight => rfl
    | increment => rfl
    | decrement => rfl

/-- An output that succeeds counts one cell. -/
theorem emitted_supply_output {console after : Console} {mode : Mode} {prompt : Option String}
    {cell supplied : UInt8}
    (answer : console.supply mode prompt (.command .output) cell = (.ok supplied, after)) :
    after.emitted = console.emitted + 1 := by
  rcases written : console.write (console.emission mode cell) with ⟨failure | _, between⟩
  · rw [supply_output_of_error written] at answer
    cases answer
  · rw [supply_output_of_ok written] at answer
    cases answer
    have kept : between.emitted = console.emitted :=
      congrArg (fun answer => answer.2.emitted) written.symm
    exact congrArg (· + 1) kept

end Console

namespace Run

variable {run next final : Run} {options : Options} {program : Program}
  {instruction : Instruction} {before : List UInt8} {cells : List UInt8} {how : Ending}

/-! ## One step -/

theorem prints_of_running (here : program[run.machine.position]? = some instruction)
    (goes : run.advance options program = .running next) :
    run.prints options program =
      if instruction = .command .output then [run.machine.tape.current] else [] := by
  rw [prints, here, goes]
  split
  · next same _ =>
    cases same
    rfl
  · next other =>
    rw [if_neg]
    intro same
    subst same
    exact other next rfl rfl

/-- A step that does not go on prints nothing. -/
theorem prints_of_over (stops : ∀ next, run.advance options program ≠ .running next) :
    run.prints options program = [] := by
  rw [prints]
  split
  · next next _ goes => exact absurd goes (stops next)
  · rfl

theorem prints_of_ended (ends : run.advance options program = .ended how final) :
    run.prints options program = [] := by
  refine prints_of_over fun next goes => ?_
  rw [ends] at goes
  cases goes

/-- Since a run began it has written the text of these cells. -/
structure Wrote (mode : Mode) (before cells : List UInt8) (run : Run) : Prop where
  accepted : run.console.output.accepted.toList = before ++ Text.encode (mode.text cells)
  emitted : run.console.emitted = cells.length

theorem wrote_begin {tape : Tape} {console : Console} (mode : Mode) :
    Wrote mode console.output.accepted.toList []
      ⟨.load tape, 0, { console with emitted := 0 }⟩ := by
  refine ⟨?_, rfl⟩
  change console.output.accepted.toList = _ ++ []
  rw [List.append_nil]

theorem emitted_advance (untraced : options.traced = false)
    (goes : run.advance options program = .running next) :
    next.console.emitted = run.console.emitted + (run.prints options program).length := by
  have outcome := outcome_advance run options program
  rw [goes] at outcome
  cases outcome with
  | performed instruction supplied console machine here _ answer stepped =>
    rw [prints_of_running here goes]
    split
    · next output =>
      subst output
      exact Console.emitted_supply_output answer
    · next quiet =>
      have kept := Console.emitted_supply_of_quiet quiet run.console options.mode options.prompt
        run.machine.tape.current
      rw [answer] at kept
      exact kept
  | rowWritten instruction console machine here traced stepped answer =>
    rw [untraced] at traced
    cases traced

/-- What a step that goes on has to write is the cell that it prints. -/
theorem text_passage_of_running (untraced : options.traced = false)
    (wrote : run.Wrote options.mode before cells)
    (goes : run.advance options program = .running next) :
    options.mode.text cells ++ (run.passage options program).text =
      options.mode.text (cells ++ run.prints options program) := by
  rcases advance_eq_running goes with ⟨instruction, _, here, _, _⟩
  rw [prints_of_running here goes]
  cases tried : run.attempts options program with
  | false =>
    rcases advance_of_idle here tried with ⟨how, final, ends, _⟩
    rw [ends] at goes
    cases goes
  | true =>
    rw [passage_of_attempts here tried]
    split
    · next output =>
      subst output
      rw [instructionText_of_output untraced, Console.emission_of_emitted wrote.emitted,
        Mode.text_concat]
    · next quiet =>
      rw [instructionText_of_quiet untraced quiet, String.append_empty, List.append_nil]

/-- What one step preserves. -/
theorem Wrote.advance (untraced : options.traced = false)
    (wrote : run.Wrote options.mode before cells)
    (goes : run.advance options program = .running next) :
    next.Wrote options.mode before (cells ++ run.prints options program) := by
  constructor
  · have passed := accepted_advance run options program
    rw [goes] at passed
    have written : next.console.output.accepted = _ := passed
    rw [written, Console.accepted_write_of_ok (write_of_advance_running goes), wrote.accepted,
      List.append_assoc, ← Text.encode_append, text_passage_of_running untraced wrote goes]
  · rw [emitted_advance untraced goes, wrote.emitted, List.length_append]

/-- What the last step of a run has to write is the notice if the run has
completed, and nothing otherwise.  The exception is a completion that fails:
the notice was written and could not be made visible. -/
theorem text_passage_of_ended (untraced : options.traced = false)
    (whole : (run.console.write (run.passage options program).text).1 = .ok ())
    (ends : run.advance options program = .ended how final) :
    (run.passage options program).text = how.notice ∨
      ∃ failure, run.console.conclude.1 = .error failure ∧
        how = .failed (.device run.machine.position failure) := by
  have outcome := outcome_advance run options program
  rw [ends] at outcome
  have silent (intended : Ending) (none : intended.notice = "")
      (answer : Except DeviceFailure Unit) :
      (endingAfter run.machine.position intended answer).notice = "" := by
    cases answer with
    | error failure => rfl
    | ok _ => exact none
  cases outcome with
  | finished past =>
    rw [passage_of_none past]
    cases concluded : run.console.conclude.1 with
    | ok _ => exact .inl rfl
    | error failure => exact .inr ⟨failure, rfl, rfl⟩
  | interrupted instruction here stopped =>
    left
    have idle : run.attempts options program = false := by
      simp only [attempts, stopped, Bool.not_true, Bool.and_false, Bool.false_and]
    rw [passage_of_idle here idle, silent .interrupted rfl]
  | limited instruction limit here free reached =>
    left
    have idle : run.attempts options program = false := by
      simp only [attempts, reached, Option.isNone_some, Bool.and_false]
    rw [passage_of_idle here idle]
    rfl
  | refused instruction failure console here _ answer =>
    left
    cases tried : run.attempts options program with
    | false => rw [passage_of_idle here tried]; rfl
    | true =>
      rw [passage_of_attempts here tried] at whole ⊢
      by_cases quiet : instruction = .command .output
      · -- A cell that is accepted as a whole is not refused.
        subst quiet
        rw [instructionText_of_output untraced] at whole
        rw [Console.supply_output_of_ok (Prod.ext whole rfl)] at answer
        cases answer
      · rw [instructionText_of_quiet untraced quiet]
        rfl
  | rowRefused instruction failure console machine here traced stepped answer =>
    rw [untraced] at traced
    cases traced

/-- If the last step is not cut short by the sink, it has written its
passage. -/
theorem Wrote.accepted_of_whole (wrote : run.Wrote options.mode before cells)
    (whole : (run.console.write (run.passage options program).text).1 = .ok ())
    (ends : run.advance options program = .ended how final) :
    final.console.output.accepted.toList =
      before ++ Text.encode (options.mode.text cells ++ (run.passage options program).text) := by
  have passed := accepted_advance run options program
  rw [ends] at passed
  have written : final.console.output.accepted = _ := passed
  rw [written, Console.accepted_write_of_ok whole, wrote.accepted, List.append_assoc,
    ← Text.encode_append]

/-- On a console on which nothing fails, the last step writes the notice if
the run has completed, and nothing else. -/
theorem Wrote.accepted_of_ended (unrestricted : options.Unrestricted)
    (good : run.console.Undisturbed) (wrote : run.Wrote options.mode before cells)
    (ends : run.advance options program = .ended how final) :
    final.console.output.accepted.toList =
      before ++ Text.encode (options.mode.text cells ++ how.notice) := by
  have whole := Console.write_fst_of_reliable good.reliable (run.passage options program).text
  rw [wrote.accepted_of_whole whole ends]
  rcases text_passage_of_ended unrestricted.untraced whole ends with notice | ⟨failure, refused, _⟩
  · rw [notice]
  · rw [Console.conclude_fst_of_reliable good.reliable] at refused
    cases refused

end Run

namespace Progress

variable {options : Options} {program : Program} {run next final : Run} {how : Ending}

/-! ## A whole run -/

@[simp]
theorem printed_zero (options : Options) (program : Program) (progress : Progress) :
    printed options program 0 progress = [] := by
  cases progress <;> rfl

@[simp]
theorem printed_ended (options : Options) (program : Program) (count : Nat) (how : Ending)
    (run : Run) : printed options program count (ended how run) = [] := by
  cases count <;> rfl

@[simp]
theorem printed_stuck (options : Options) (program : Program) (count : Nat) (why : Stuck)
    (run : Run) : printed options program count (stuck why run) = [] := by
  cases count <;> rfl

/-- The cells of two parts of a run are printed one after the other. -/
theorem printed_add (options : Options) (program : Program) (first second : Nat)
    (progress : Progress) :
    printed options program (first + second) progress =
      printed options program first progress ++
        printed options program second (iterate options program first progress) := by
  induction first generalizing progress with
  | zero =>
    rw [Nat.zero_add, printed_zero, List.nil_append]
    cases progress <;> rfl
  | succ first ih =>
    rw [Nat.succ_add]
    cases progress with
    | running run => simp only [printed, iterate, ih, List.append_assoc]
    | ended how run => simp
    | stuck why run => simp

/-- A run that ends was under way before its last step. -/
theorem exists_last {count : Nat}
    (ends : iterate options program count (running run) = ended how final) :
    ∃ few last, few < count ∧ iterate options program few (running run) = running last ∧
      last.advance options program = ended how final := by
  induction count generalizing run with
  | zero => cases ends
  | succ count ih =>
    rw [iterate] at ends
    cases goes : run.advance options program with
    | running next =>
      rw [goes] at ends
      rcases ih ends with ⟨few, last, less, reached, stops⟩
      refine ⟨few + 1, last, Nat.succ_lt_succ less, ?_, stops⟩
      rw [iterate, goes]
      exact reached
    | ended how' final' =>
      rw [goes, iterate_ended] at ends
      exact ⟨0, run, Nat.succ_pos count, rfl, goes.trans ends⟩
    | stuck why final' =>
      rw [goes, iterate_stuck] at ends
      cases ends

/-- The last step of a run that ends prints nothing. -/
theorem printed_of_ended {few count : Nat} {last : Run} (less : few < count)
    (reached : iterate options program few (running run) = running last)
    (ends : last.advance options program = ended how final) :
    printed options program count (running run) = printed options program few (running run) := by
  have parts : few + (count - few - 1 + 1) = count := by omega
  rw [← parts, printed_add, reached, printed, Run.prints_of_ended ends, ends, printed_ended,
    List.append_nil, List.append_nil]

/-- What a whole run preserves. -/
theorem wrote_of_iterate (untraced : options.traced = false) {before cells : List UInt8}
    {count : Nat} (wrote : run.Wrote options.mode before cells)
    (goes : iterate options program count (running run) = running next) :
    next.Wrote options.mode before (cells ++ printed options program count (running run)) := by
  induction count generalizing run cells with
  | zero =>
    cases goes
    rw [printed_zero, List.append_nil]
    exact wrote
  | succ count ih =>
    rw [iterate] at goes
    cases step : run.advance options program with
    | running after =>
      rw [step] at goes
      rw [printed, step, ← List.append_assoc]
      exact ih (wrote.advance untraced step) goes
    | ended how final =>
      rw [step, iterate_ended] at goes
      cases goes
    | stuck why final =>
      rw [step, iterate_stuck] at goes
      cases goes

end Progress

namespace Program

open Progress (running ended)

variable {program : Program} {options : Options} {tape : Tape} {console : Console}
  {cells : List UInt8} {how : Ending} {final : Run}

/-- Before a run finished it had printed the same cells. -/
theorem exists_last_of_finishes (unrestricted : options.Unrestricted)
    (finishes : program.Finishes options tape console cells how final) :
    ∃ count last, program.execute options tape console count = running last ∧
      program.printed options tape console count = cells ∧
      last.advance options program = ended how final := by
  rcases finishes with ⟨budget, ends, rfl⟩
  have begun := @Run.begin_of_untraced options tape console unrestricted.untraced
  simp only [execute, printed, begun] at ends ⊢
  rcases Progress.exists_last ends with ⟨few, last, less, reached, stops⟩
  exact ⟨few, last, reached, (Progress.printed_of_ended less reached stops).symm, stops⟩

theorem finishes_of_last {count : Nat} {last : Run}
    (reached : program.execute options tape console count = running last)
    (ends : last.advance options program = ended how final) :
    program.Finishes options tape console (program.printed options tape console count) how
      final := by
  refine ⟨count + 1, (execute_succ_of_running reached).trans ends, ?_⟩
  rw [execute] at reached
  rw [printed, Progress.printed_add, reached, Progress.printed, Run.prints_of_ended ends, ends,
    Progress.printed_ended, List.append_nil, List.append_nil]
  rfl

theorem undisturbed_of_finishes (good : console.Undisturbed)
    (finishes : program.Finishes options tape console cells how final) :
    final.console.Undisturbed := by
  rcases finishes with ⟨budget, ends, _⟩
  have ran := Console.law_undisturbed.of_execute good program options tape budget
  rw [ends] at ran
  exact ran

/-- A run that ends on a console on which nothing fails has written the text
of the cells it printed, and then the notice if it has completed. -/
theorem accepted_of_finishes (unrestricted : options.Unrestricted)
    (good : console.Undisturbed)
    (finishes : program.Finishes options tape console cells how final) :
    final.console.output.accepted.toList =
      console.output.accepted.toList ++
        Text.encode (options.mode.text cells ++ how.notice) := by
  rcases exists_last_of_finishes unrestricted finishes with ⟨count, last, reached, rfl, stops⟩
  simp only [execute, printed, Run.begin_of_untraced unrestricted.untraced] at reached ⊢
  have fresh := Console.law_undisturbed.recount console 0 good
  have wrote := Progress.wrote_of_iterate unrestricted.untraced (Run.wrote_begin options.mode)
    reached
  have still := Console.law_undisturbed.of_iterate fresh reached
  exact wrote.accepted_of_ended unrestricted still stops

end Program
end RingTape
