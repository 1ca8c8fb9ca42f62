import RingTape.Proofs.Excerpts
import RingTape.Proofs.Places

namespace RingTape

/-!
# Carets below brackets

A report on unmatched brackets is a sequence of blocks, one for each place.
A block consists of a message and two rows: the part of the source line that
is shown, behind a gutter with the line number, and a caret behind blanks.

Counted from the left end of the shown part, the caret stands at the
offending bracket, for every place of every refused text
(`Report.caret_points_at_bracket`).  Counted from the left end of the rows
this need not be so.  The gutter grows with line numbers of more than four
digits and the blanks in front of the caret do not, so the caret is below the
bracket exactly on the first ten thousand lines
(`Report.caret_below_bracket_iff`).
-/

/-- Whether an excerpt of a line has its caret at a column of the source, and
there shows a character.  The excerpt is a stretch of the line that begins
`radius` characters before the column, or where the line begins. -/
structure Excerpt.PointsAt (excerpt : Excerpt) (line : SourceLine) (column : Nat)
    (character : Char) : Prop where
  behind : line.start ≤ column
  stretch : excerpt.snippet <+: line.text.drop (column - line.start - radius)
  here : line.start + (column - line.start - radius) + excerpt.indent = column
  shown : excerpt.snippet[excerpt.indent]? = some character

namespace BracketError

theorem bracket_visible (error : BracketError) : error.bracket ≠ '\n' ∧ error.bracket ≠ '\r' := by
  cases error <;> exact ⟨by simp only [bracket]; decide, by simp only [bracket]; decide⟩

theorem notMem_toString (number : Nat) : '\n' ∉ (toString number).toList := by
  intro member
  rw [Nat.toString_eq_ofList_toDigits, String.toList_ofList] at member
  exact absurd (Nat.isDigit_of_mem_toDigits (by decide) (by decide) member) (by decide)

theorem notMem_messageAt (error : BracketError) (place : Position) :
    '\n' ∉ (error.messageAt place).toList := by
  have line := notMem_toString place.line
  have column := notMem_toString place.column
  cases error <;>
    simp only [messageAt, Position.describe, String.toList_append, List.mem_append, not_or] <;>
    exact ⟨⟨by decide, ⟨⟨by decide, line⟩, by decide⟩, column⟩, by decide⟩

/-- The lines of the whole message are the messages of the single places. -/
theorem splitOn_message {error : BracketError} (named : error.places ≠ []) :
    List.splitOn '\n' error.message.toList =
      error.places.map fun place => (error.messageAt place).toList := by
  rw [message, String.toList_intercalate, List.map_map]
  apply List.splitOn_intercalate
  · intro text member
    rcases List.mem_map.mp member with ⟨place, _, rfl⟩
    exact notMem_messageAt error place
  · simpa using named

end BracketError

namespace Report

/-! ## Rows -/

/-- What stands in front of the shown part of a line. -/
def gutter (number : Nat) : String :=
  "  " ++ Text.padLeft 4 (toString number) ++ " | "

/-- The row that shows an excerpt of a numbered line. -/
def sourceRow (number : Nat) (excerpt : Excerpt) : String :=
  gutter number ++ String.ofList excerpt.snippet

/-- The row with the caret. -/
def caretRow (excerpt : Excerpt) : String :=
  Text.spaces (9 + excerpt.indent) ++ "^"

/-- The message on a place and the two rows below it. -/
def rows (program : Option String) (error : BracketError) (place : Position)
    (excerpt : Excerpt) : String :=
  prefixed program (error.messageAt place) ++ "\n" ++ sourceRow place.line excerpt ++ "\n" ++
    caretRow excerpt ++ "\n"

@[simp]
theorem paint_plain (text : String) : Style.plain.paint text = text := by
  rw [Style.paint, Style.opening, Style.closing, String.empty_append, String.append_empty]

/-- The rows without colors. -/
@[simp]
theorem context_plain (source : String) (place : Position) :
    context source place .plain =
      sourceRow place.line (Excerpt.around source place.column) ++ "\n" ++
        caretRow (Excerpt.around source place.column) ++ "\n" := by
  have blanks (count : Nat) : "         " ++ Text.spaces count = Text.spaces (9 + count) := by
    apply String.toList_inj.mp
    rw [String.toList_append, Text.toList_spaces, Text.toList_spaces,
      ← List.replicate_append_replicate]
    rfl
  simp only [context, sourceRow, caretRow, gutter, Palette.plain, paint_plain, ← blanks,
    String.append_assoc]
  rfl

/-- A block without colors. -/
theorem block_plain (program : Option String) (source : String) (error : BracketError)
    (place : Position) :
    block program source error .plain place =
      rows program error place (Excerpt.around source place.column) := by
  have error_plain : Palette.plain.error = .plain := rfl
  simp only [block, rows, context_plain, error_plain, paint_plain, String.append_assoc]

theorem brackets_plain (program : Option String) (source : String) (error : BracketError) :
    brackets program source error .plain =
      String.join (error.places.map fun place =>
        rows program error place (Excerpt.around source place.column)) := by
  rw [brackets]
  exact congrArg String.join (List.map_congr_left fun place _ =>
    block_plain program source error place)

/-! ## The caret within the shown part -/

/-- The excerpt around a visible character has its caret there. -/
theorem pointsAt_around {source : String} {place : Position} {character : Char}
    (holds : Position.Holds source.toList place character)
    (visible : character ≠ '\n' ∧ character ≠ '\r') :
    ∃ line, SourceLine.numbered? source.toList place.line = some line ∧
      (Excerpt.around source place.column).PointsAt line place.column character := by
  have numbered := SourceLine.numbered?_count source.toList place.column
  rw [← holds.line_eq] at numbered
  rcases SourceLine.getElem?_around holds.getElem?_column visible with ⟨behind, found⟩
  refine ⟨_, numbered, behind, Excerpt.snippet_cut_prefix _ _ _, ?_, ?_⟩
  · change _ + (_ - Excerpt.radius) + (_ - (_ - Excerpt.radius)) = _
    omega
  · rw [← found]
    exact Excerpt.getElem?_snippet_cut (by omega)

/-- A report has a block for each place of the error, in their order: the
line of the message that names the place, the shown part of the source line
with the number that is named, and the caret.  Counted from the left end of
the shown part, the caret is at the offending bracket, which is the character
of the source at the named column. -/
theorem caret_points_at_bracket {source : String} {error : BracketError}
    (refused : Program.parse source = .error error) (program : Option String) :
    brackets program source error .plain =
      String.join (error.places.map fun place =>
        rows program error place (Excerpt.around source place.column)) ∧
    List.splitOn '\n' error.message.toList =
      (error.places.map fun place => (error.messageAt place).toList) ∧
    ∀ place ∈ error.places, source.toList[place.column]? = some error.bracket ∧
      ∃ line, SourceLine.numbered? source.toList place.line = some line ∧
        (Excerpt.around source place.column).PointsAt line place.column error.bracket := by
  rcases Program.holds_of_parse refused with ⟨named, standing⟩
  refine ⟨brackets_plain program source error, BracketError.splitOn_message named, ?_⟩
  intro place member
  have holds := standing place member
  exact ⟨holds.getElem?_column, pointsAt_around holds error.bracket_visible⟩

/-- The second line of two, with a letter of more than one byte and a
carriage return behind the bracket. -/
theorem caret_points_at_close :
    Program.parse "é\nàb]\r" = .error (.unmatchedClose ⟨1, 4⟩) ∧
    brackets (some "bftape") "é\nàb]\r" (.unmatchedClose ⟨1, 4⟩) .plain =
      "bftape: Error on line 1, column 4: closing ']' without a matching '['\n" ++
        "     1 | àb]\n" ++ "           ^\n" ∧
    ∃ line, SourceLine.numbered? "é\nàb]\r".toList 1 = some line ∧
      (Excerpt.around "é\nàb]\r" 4).PointsAt line 4 ']' := by
  have refused : Program.parse "é\nàb]\r" = .error (.unmatchedClose ⟨1, 4⟩) := rfl
  rcases caret_points_at_bracket refused (some "bftape") with ⟨written, _, points⟩
  exact ⟨refused, written.trans rfl, (points ⟨1, 4⟩ (List.mem_singleton.mpr rfl)).2⟩

/-! ## The caret within its row -/

/-- The gutter is wider for numbers of more than four digits. -/
theorem length_gutter (number : Nat) :
    (gutter number).toList.length = 9 + ((toString number).length - 4) := by
  simp only [gutter, Text.padLeft, String.length_toList, String.length_append,
    Text.length_spaces]
  have frame : "  ".length = 2 ∧ " | ".length = 3 := by decide
  omega

theorem length_toString_le_four_iff {number : Nat} :
    (toString number).length ≤ 4 ↔ number < 10000 := by
  rw [Nat.toString_eq_ofList_toDigits, String.length_ofList]
  exact Nat.length_toDigits_le_iff (by decide) (by decide)

theorem idxOf_caretRow (excerpt : Excerpt) :
    (caretRow excerpt).toList.idxOf '^' = 9 + excerpt.indent := by
  have absent : '^' ∉ List.replicate (9 + excerpt.indent) ' ' := by
    intro member
    exact absurd (List.eq_of_mem_replicate member) (by decide)
  rw [caretRow, String.toList_append, Text.toList_spaces, List.idxOf_append, if_neg absent,
    List.length_replicate]
  exact Nat.zero_add _

/-- Where the row above the caret shows a column of the source: the columns
follow the gutter, from the first one that is shown. -/
def shownAt (number : Nat) (line : SourceLine) (column : Nat) : Nat :=
  (gutter number).toList.length +
    (column - (line.start + (column - line.start - Excerpt.radius)))

/-- In every block of a report the caret stands as many characters to the
left of the bracket above it as the line number has digits beyond four.  So
it is below the bracket exactly on the first ten thousand lines. -/
theorem caret_below_bracket_iff {source : String} {error : BracketError}
    (refused : Program.parse source = .error error) (program : Option String) :
    brackets program source error .plain =
      String.join (error.places.map fun place =>
        rows program error place (Excerpt.around source place.column)) ∧
    ∀ place ∈ error.places, ∃ line,
      SourceLine.numbered? source.toList place.line = some line ∧
      (sourceRow place.line (Excerpt.around source place.column)).toList[
        shownAt place.line line place.column]? = some error.bracket ∧
      (caretRow (Excerpt.around source place.column)).toList.idxOf '^' +
        ((toString place.line).length - 4) = shownAt place.line line place.column ∧
      ((caretRow (Excerpt.around source place.column)).toList.idxOf '^' =
        shownAt place.line line place.column ↔ place.line < 10000) := by
  refine ⟨brackets_plain program source error, ?_⟩
  intro place member
  have holds := (Program.holds_of_parse refused).2 place member
  rcases pointsAt_around holds error.bracket_visible with ⟨line, numbered, points⟩
  have offset : shownAt place.line line place.column =
      (gutter place.line).toList.length + (Excerpt.around source place.column).indent := by
    have here := points.here
    rw [shownAt]
    omega
  have wide := length_gutter place.line
  have narrow := @length_toString_le_four_iff place.line
  refine ⟨line, numbered, ?_, ?_, ?_⟩
  · rw [offset, sourceRow, String.toList_append, String.toList_ofList,
      List.getElem?_append_right (Nat.le_add_right _ _), Nat.add_sub_cancel_left]
    exact points.shown
  · rw [offset, idxOf_caretRow]
    omega
  · rw [offset, idxOf_caretRow, ← narrow]
    omega

/-- On the first line the caret is below the bracket. -/
theorem caret_below_close :
    Program.parse "+-]" = .error (.unmatchedClose ⟨0, 2⟩) ∧
    ∃ line, SourceLine.numbered? "+-]".toList 0 = some line ∧
      (caretRow (Excerpt.around "+-]" 2)).toList.idxOf '^' = shownAt 0 line 2 := by
  have refused : Program.parse "+-]" = .error (.unmatchedClose ⟨0, 2⟩) := rfl
  rcases (caret_below_bracket_iff refused none).2 ⟨0, 2⟩ (List.mem_singleton.mpr rfl) with
    ⟨line, numbered, _, _, below⟩
  exact ⟨refused, line, numbered, below.mpr (by decide)⟩

section FarDown

/-- Line feeds are counted and otherwise ignored. -/
theorem readFrom_lineFeeds (here : Position) (opened : List Position) (read : Program)
    (count : Nat) (rest : List Char) :
    Program.readFrom here opened read (List.replicate count '\n' ++ rest) =
      Program.readFrom ⟨here.line + count, here.column + count⟩ opened read rest := by
  induction count generalizing here with
  | zero => rfl
  | succ count ih =>
    have next : here.next '\n' = ⟨here.line + 1, here.column + 1⟩ := rfl
    have line : here.line + 1 + count = here.line + (count + 1) := by omega
    have column : here.column + 1 + count = here.column + (count + 1) := by omega
    change Program.readFrom (here.next '\n') opened read
      (List.replicate count '\n' ++ rest) = _
    rw [ih, next, line, column]

theorem around_lineFeeds (count : Nat) :
    SourceLine.around (List.replicate count '\n' ++ [']']) count = ⟨[']'], count⟩ := by
  have begins : List.replicate count '\n' = [] ∨
      ∃ lines, List.replicate count '\n' = lines ++ ['\n'] := by
    cases count with
    | zero => exact .inl rfl
    | succ count => exact .inr ⟨List.replicate count '\n', List.replicate_succ'⟩
  have clear : '\n' ∉ [']'] := by decide
  have found := SourceLine.numbered?_append clear begins (.inl rfl)
  have around := SourceLine.numbered?_count (List.replicate count '\n' ++ [']']) count
  rw [List.append_nil, List.count_replicate_self, List.length_replicate] at found
  rw [List.take_left' List.length_replicate, List.count_replicate_self, found] at around
  exact (Option.some.inj around).symm

/-- Behind ten thousand line feeds the caret is one character to the left of
the bracket. -/
theorem caret_left_of_close :
    Program.parse (String.ofList (List.replicate 10000 '\n' ++ [']'])) =
      .error (.unmatchedClose ⟨10000, 10000⟩) ∧
    brackets none (String.ofList (List.replicate 10000 '\n' ++ [']']))
        (.unmatchedClose ⟨10000, 10000⟩) .plain =
      "Error on line 10000, column 10000: closing ']' without a matching '['\n" ++
        "  10000 | ]\n" ++ "         ^\n" ∧
    "         ^".toList.idxOf '^' ≠ "  10000 | ]".toList.idxOf ']' := by
  have excerpt : Excerpt.around (String.ofList (List.replicate 10000 '\n' ++ [']'])) 10000 =
      ⟨[']'], 0⟩ := by
    rw [Excerpt.around, String.toList_ofList, around_lineFeeds]
    rfl
  refine ⟨?_, ?_, by decide⟩
  · rw [Program.parse, String.toList_ofList, readFrom_lineFeeds]
    rfl
  · rw [brackets_plain]
    simp only [BracketError.places, List.map_cons, List.map_nil, excerpt]
    rfl

end FarDown
end Report
end RingTape
