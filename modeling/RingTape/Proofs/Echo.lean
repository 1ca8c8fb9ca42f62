import RingTape.Proofs.Acceptance
import RingTape.Proofs.Concatenation

namespace RingTape

/-!
# Input undoes output

A program that repeats an input and an output instruction prints the cells
that it reads.  Whatever lines the cells are rendered on, the text that comes
out shows the same cells again, although it looks different: input has a line
for each cell, output has spaces or nothing between them.

A rendered line with its ending is a record that input accepts as its cell
(`Mode.Renders.accepts`).  Two steps then take the record and print the cell
(`Program.exists_echoed`), and an induction along the lines does the same for
all of them.  What output itself writes for a cell is one way to render it
(`Mode.lines_render`).
-/

namespace Mode

variable {mode : Mode} {cell : UInt8} {line ending : String}

/-- A rendered line is one line. -/
theorem Renders.notMem (renders : mode.Renders cell line) (survives : mode.Survives cell ending) :
    '\n' ∉ line.toList := by
  cases mode with
  | character =>
    rw [renders, String.toList_singleton, List.mem_singleton]
    intro same
    exact survives.1 (@ofNat_eq_iff cell 10 |>.mp same.symm)
  | numeric =>
    rcases renders with ⟨_, _, _, _, absent⟩
    exact absent

/-- Whatever ending it has, a rendered line is read as its cell. -/
theorem Renders.accepts (renders : mode.Renders cell line) (survives : mode.Survives cell ending)
    (ends : ending ∈ endings) : mode.Accepts (Text.encode (line ++ ending)) cell := by
  cases mode with
  | character => exact ⟨ending, ends, by rw [renders], survives⟩
  | numeric =>
    rcases renders with ⟨sign, zeros, plus, padded, _⟩
    have blank : Text.AllBlank ending.toList := by
      simp only [endings, List.mem_cons, List.not_mem_nil, or_false] at ends
      rcases ends with rfl | rfl | rfl | rfl <;> decide
    refine ⟨_, sign, _, Text.decode?_encode _, ?_, plus, Text.natural?_replicate_zero zeros _⟩
    rw [String.toList_append]
    exact padded.append blank

theorem renders_render (mode : Mode) (cell : UInt8) : mode.Renders cell (mode.render cell) := by
  cases mode with
  | character => rfl
  | numeric =>
    have written : (numeric.render cell).toList = Text.numeral cell.toNat := String.toList_ofList
    refine ⟨[], 0, .inl rfl, ?_, ?_⟩
    · rw [written]
      exact Text.padded_refl _
    · rw [written]
      exact Text.notMem_numeral (by decide) cell.toNat

/-- Cells that are printed on a line each are lines for these cells. -/
theorem lines_render {cells : List UInt8} (ends : ending = "\n" ∨ ending = "\r\n")
    (survives : ∀ cell ∈ cells, mode.Survives cell ending) :
    mode.Lines cells (String.join (cells.map fun cell => mode.render cell ++ ending)) := by
  induction cells with
  | nil => exact .none
  | cons cell cells ih =>
    have first := survives cell List.mem_cons_self
    have others := ih fun other member => survives other (List.mem_cons_of_mem cell member)
    rw [List.map_cons, String.join_cons]
    exact .line (renders_render mode cell) ends first others

end Mode

namespace InputScript

variable {mode : Mode} {cell : UInt8} {script : InputScript} {line ending rest : String}

/-- The first of several lines is the first record. -/
theorem takeRecord_of_line (renders : mode.Renders cell line)
    (ends : ending = "\n" ∨ ending = "\r\n") (survives : mode.Survives cell ending)
    (holds : script.symbols = (Text.encode (line ++ ending ++ rest)).map .byte) :
    script.takeRecord.1 = .line (Text.encode (line ++ ending)) ∧
      script.takeRecord.2.symbols = (Text.encode rest).map .byte := by
  -- The return of a longer ending stands in front of the line feed.
  have parts : ∃ front : String, line ++ ending = front ++ "\n" ∧ '\n' ∉ front.toList := by
    have absent := renders.notMem survives
    rcases ends with rfl | rfl
    · exact ⟨line, rfl, absent⟩
    · refine ⟨line ++ "\r", (@String.append_assoc line "\r" "\n").symm, ?_⟩
      rw [String.toList_append, List.mem_append, not_or]
      exact ⟨absent, by decide⟩
  rcases parts with ⟨front, whole, absent⟩
  have unended : lineFeed ∉ Text.encode front := @Text.notMem_encode front '\n' (by decide) absent
  have feed : Text.encode "\n" = [lineFeed] := rfl
  rw [whole, Text.encode_append, Text.encode_append, feed, List.append_assoc, List.map_append,
    List.singleton_append, List.map_cons] at holds
  rw [whole, Text.encode_append, feed]
  exact takeRecord_of_lineFeed unended holds

/-- A line without an ending is the last record. -/
theorem takeRecord_of_last (renders : mode.Renders cell line) (survives : mode.Survives cell "")
    (holds : script.symbols = (Text.encode line).map .byte) :
    script.takeRecord.1 = .line (Text.encode line) ∧ script.takeRecord.2.symbols = [] :=
  takeRecord_of_unended
    (@Text.notMem_encode line '\n' (by decide) (renders.notMem survives)) holds

end InputScript

namespace Run

open Progress (running ended)

variable {run : Run} {options : Options} {program : Program} {record : List UInt8} {cell : UInt8}

/-- On a console on which nothing fails every reading takes its record. -/
theorem takesRecord_of_undisturbed (unrestricted : options.Unrestricted)
    (good : run.console.Undisturbed)
    (here : program[run.machine.position]? = some (.command .input)) :
    run.takesRecord options program = true := by
  have awaits := awaitsInput_iff.mpr ⟨unrestricted.untraced, good.calm.stopped,
    exhaustedLimit_of_unrestricted unrestricted run, here⟩
  rw [takesRecord, awaits, Console.flush_fst_of_reliable good.reliable]
  rfl

theorem exists_stored (unrestricted : options.Unrestricted) (good : run.console.Undisturbed)
    (here : program[run.machine.position]? = some (.command .input))
    (taken : run.console.input.takeRecord.1 = .line record)
    (accepts : options.mode.Accepts record cell) :
    ∃ next, run.advance options program = running next ∧
      next.machine.position = run.machine.position + 1 ∧ next.machine.tape.current = cell ∧
      next.console.input = run.console.input.takeRecord.2 := by
  have feedless := InputScript.lineFeed_notMem_of_takeRecord taken
  have read := (Mode.decode?_eq_some_iff feedless).mpr accepts
  have goes := advance_of_takesRecord (takesRecord_of_undisturbed unrestricted good here)
  rw [taken, receiving_of_some _ read] at goes
  exact ⟨_, goes, rfl, Tape.current_put _ cell, rfl⟩

theorem exists_emitted (unrestricted : options.Unrestricted) (good : run.console.Undisturbed)
    (here : program[run.machine.position]? = some (.command .output)) :
    ∃ next, run.advance options program = running next ∧
      next.machine.position = run.machine.position + 1 ∧
      next.console.input = run.console.input := by
  have whole := Console.write_fst_of_reliable good.reliable
    (run.console.emission options.mode run.machine.tape.current)
  have goes := (advance_of_unrestricted unrestricted here good.calm.stopped).trans
    (perform_of_ok (Console.supply_output_of_ok (Prod.ext whole rfl)) rfl)
  exact ⟨_, goes, rfl, rfl⟩

end Run

namespace Program

open Progress (running ended)

variable {program : Program} {options : Options} {console : Console} {cells : List UInt8}
  {text : String} {run : Run}

/-- So many times input and then output. -/
def echoes (count : Nat) : List Instruction :=
  (List.replicate count [.command .input, .command .output]).flatten

theorem echoes_succ (count : Nat) :
    echoes (count + 1) = .command .input :: .command .output :: echoes count := by
  rw [echoes, List.replicate_succ, List.flatten_cons]
  rfl

theorem parse_echoes (count : Nat) :
    parse (String.join (List.replicate count ",.")) = .ok (echoes count).toArray := by
  induction count with
  | zero => rfl
  | succ count ih =>
    have pair : parse ",." = .ok #[.command .input, .command .output] := rfl
    rw [List.replicate_succ, String.join_cons, parse_append pair ih, echoes_succ]
    congr 1
    apply Array.toList_inj.mp
    rw [Array.toList_append]
    rfl

/-- What two steps preserve: the cell of a record is stored and printed, and
the next record is in front. -/
theorem exists_echoed {record : List UInt8} {cell : UInt8} {count : Nat}
    (unrestricted : options.Unrestricted) (good : run.console.Undisturbed)
    (left : program.toList.drop run.machine.position = echoes (count + 1))
    (taken : run.console.input.takeRecord.1 = .line record)
    (accepts : options.mode.Accepts record cell) :
    ∃ next, Progress.iterate options program 2 (running run) = running next ∧
      Progress.printed options program 2 (running run) = [cell] ∧
      program.toList.drop next.machine.position = echoes count ∧
      next.console.input = run.console.input.takeRecord.2 ∧ next.console.Undisturbed := by
  have law := Console.law_undisturbed
  rw [echoes_succ] at left
  have input : program[run.machine.position]? = some (.command .input) := by
    rw [← Array.getElem?_toList, ← List.head?_drop, left]
    rfl
  have output : program[run.machine.position + 1]? = some (.command .output) := by
    rw [← Array.getElem?_toList, ← List.getElem?_drop, left]
    rfl
  rcases Run.exists_stored unrestricted good input taken accepts with
    ⟨middle, reads, position, current, rest⟩
  have still := law.of_advance good reads
  rw [← position] at output
  rcases Run.exists_emitted unrestricted still output with ⟨next, writes, position', rest'⟩
  refine ⟨next, ?_, ?_, ?_, rest'.trans rest, law.of_advance still writes⟩
  · rw [Progress.iterate, reads, Progress.iterate, writes]
    rfl
  · simp only [Progress.printed, reads, Run.prints_of_running input reads,
      Run.prints_of_running output writes, current]
    rfl
  · rw [position', position, Nat.add_assoc, ← List.drop_drop, left]
    rfl

theorem past_of_drop (left : program.toList.drop run.machine.position = echoes 0) :
    program[run.machine.position]? = none := by
  rw [← Array.getElem?_toList, ← List.head?_drop, left]
  rfl

/-- What a whole run preserves: all lines are read and all their cells
printed. -/
theorem exists_echoed_all (unrestricted : options.Unrestricted)
    (lines : options.mode.Lines cells text) (good : run.console.Undisturbed)
    (left : program.toList.drop run.machine.position = echoes cells.length)
    (holds : run.console.input.symbols = (Text.encode text).map .byte) :
    ∃ count last, Progress.iterate options program count (running run) = running last ∧
      Progress.printed options program count (running run) = cells ∧
      program[last.machine.position]? = none ∧ last.console.input.symbols = [] ∧
      last.console.Undisturbed := by
  induction lines generalizing run with
  | none => exact ⟨0, run, rfl, rfl, past_of_drop left, holds, good⟩
  | last renders survives =>
    rcases InputScript.takeRecord_of_last renders survives holds with ⟨taken, nothing⟩
    have accepts := renders.accepts survives List.mem_cons_self
    rw [String.append_empty] at accepts
    rcases exists_echoed unrestricted good left taken accepts with
      ⟨next, goes, prints, behind, rest, still⟩
    refine ⟨2, next, goes, prints, past_of_drop behind, ?_, still⟩
    rw [rest, nothing]
  | @line cell cells line ending rest renders ends survives others ih =>
    rcases InputScript.takeRecord_of_line renders ends survives holds with ⟨taken, remaining⟩
    have member : ending ∈ Mode.endings := by
      rcases ends with rfl | rfl <;> decide
    have accepts := renders.accepts survives member
    rcases exists_echoed unrestricted good left taken accepts with
      ⟨next, goes, prints, behind, unread, still⟩
    rw [← unread] at remaining
    rcases ih still behind remaining with ⟨count, last, reached, printed, past, nothing, good'⟩
    refine ⟨2 + count, last, ?_, ?_, past, nothing, good'⟩
    · rw [Progress.iterate_add, goes, reached]
    · rw [Progress.printed_add, prints, goes, printed]
      rfl

/-- Input undoes output.  On any tape, a program that reads a cell and prints
it, as often as there are lines in its input, completes, has then read
everything, and has written a text in which a reader finds the cells of these
lines and no others. -/
theorem echo_of_lines (unrestricted : options.Unrestricted)
    (good : console.Undisturbed) (lines : options.mode.Lines cells text)
    (holds : console.input.symbols = (Text.encode text).map .byte) (tape : Tape) :
    ∃ program budget final written,
      parse (String.join (List.replicate cells.length ",.")) = .ok program ∧
      program.execute options tape console budget = ended .completed final ∧
      final.console.input.symbols = [] ∧
      final.console.output.accepted.toList =
        console.output.accepted.toList ++ written ++ Text.encode Console.completionNotice ∧
      options.mode.Shows written cells ∧
      ∀ others, options.mode.Shows written others → others = cells := by
  have fresh := Console.law_undisturbed.recount console 0 good
  have begun := @Run.begin_of_untraced options tape console unrestricted.untraced
  have shows := options.mode.shows_text cells
  rcases @exists_echoed_all (echoes cells.length).toArray options cells text
    ⟨.load tape, 0, { console with emitted := 0 }⟩ unrestricted lines fresh rfl holds with
    ⟨count, last, reached, printed, past, nothing, still⟩
  rw [← begun] at reached printed
  have ends : last.advance options (echoes cells.length).toArray =
      ended .completed { last with console := last.console.conclude.2 } := by
    rw [Run.advance_of_none past, Run.finish_eq,
      Console.conclude_fst_of_reliable still.reliable]
    rfl
  have finishes := finishes_of_last reached ends
  have accepted := accepted_of_finishes unrestricted good finishes
  have untouched := (Console.law_untouched.conclude last.console).1
  rcases finishes with ⟨budget, completes, _⟩
  refine ⟨_, budget, _, _, parse_echoes cells.length, completes, ?_, ?_, shows,
    fun others => shows.unique⟩
  · rw [← nothing]
    exact congrArg InputScript.symbols untouched
  · rw [accepted, Text.encode_append, ← List.append_assoc, Program.printed, printed]
    rfl

/-- Three numbers, the first with a sign, zeros and blanks, and the last
without an ending.  Then two characters on lines with long endings, the first
of which is a carriage return itself. -/
theorem echo_of_three_and_two :
    (∃ program budget final written, parse ",.,.,." = .ok program ∧
      program.execute { mode := .numeric } ⟨#[9, 9], 1, by decide⟩
        { input := [.bytes (Text.encode " +007\u0085\r\n0"), .bytes (Text.encode "\n255")] } budget =
          ended .completed final ∧
      final.console.input.symbols = [] ∧
      final.console.output.accepted.toList = written ++ Text.encode "\nDone!\n" ∧
      Mode.Shows .numeric written [7, 0, 255]) ∧
    ∃ program budget final written, parse ",.,." = .ok program ∧
      program.execute {} ⟨#[9], 0, by decide⟩
        { input := [.bytes [13, 13], .bytes [10, 195, 136, 13, 10]] } budget =
          ended .completed final ∧
      final.console.input.symbols = [] ∧
      final.console.output.accepted.toList = written ++ Text.encode "\nDone!\n" ∧
      Mode.Shows .character written [13, 200] := by
  have reliable (script : InputScript) : Console.Undisturbed { input := script } :=
    ⟨⟨rfl, rfl⟩, ⟨rfl, rfl⟩⟩
  constructor
  · have seven : Mode.Renders .numeric 7 " +007\u0085" :=
      ⟨['+'], 2, .inr rfl, ⟨[' '], ['\u0085'], by decide, by decide, rfl⟩, by decide⟩
    have zero : Mode.Renders .numeric 0 "0" := ⟨[], 0, .inl rfl, Text.padded_refl _, by decide⟩
    have most : Mode.Renders .numeric 255 "255" :=
      ⟨[], 0, .inl rfl, Text.padded_refl _, by decide⟩
    have lines : Mode.Lines .numeric [7, 0, 255] " +007\u0085\r\n0\n255" :=
      .line seven (.inr rfl) trivial (.line zero (.inl rfl) trivial (.last most trivial))
    rcases @echo_of_lines { mode := .numeric }
      { input := [.bytes (Text.encode " +007\u0085\r\n0"), .bytes (Text.encode "\n255")] } _ _
      ⟨rfl, rfl⟩ (reliable _) lines rfl ⟨#[9, 9], 1, by decide⟩ with
      ⟨program, budget, final, written, read, ends, nothing, accepted, shows, _⟩
    exact ⟨program, budget, final, written, read, ends, nothing, accepted, shows⟩
  · have lines := @Mode.lines_render .character "\r\n" [13, 200] (.inr rfl) fun cell member => by
      rw [List.mem_cons, List.mem_singleton] at member
      rcases member with rfl | rfl
      · exact And.intro (by decide) fun _ => by decide
      · exact And.intro (by decide) fun _ => by decide
    rcases @echo_of_lines {} { input := [.bytes [13, 13], .bytes [10, 195, 136, 13, 10]] } _ _
      ⟨rfl, rfl⟩ (reliable _) lines rfl ⟨#[9], 0, by decide⟩ with
      ⟨program, budget, final, written, read, ends, nothing, accepted, shows, _⟩
    exact ⟨program, budget, final, written, read, ends, nothing, accepted, shows⟩

end Program
end RingTape
