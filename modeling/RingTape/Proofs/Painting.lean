import RingTape.Proofs.Carets
import RingTape.Text.Marks
import RingTape.Text.Unsigned

namespace RingTape

/-!
# Colors and nothing else

A painted text shows what was painted, and its style ends with it.  Both are
facts about the marks of the text, and they carry over to texts put together
(`Text.Shows`).

A report is put together from rows that do not depend on the palette but for
the styles of their pieces (`Report.rowsAt`).  No piece holds an escape
character or a line feed, if the source and the name of the program do not.
So each row of a colored report shows the row of the plain one and closes
its styles, which makes the whole reports show the same
(`Report.colors_only_paint`).
-/

namespace Text

/-- Wherever this text stands, its marks are its own, they show this, and
they close their styles. -/
def Shows (painted shown : List Char) : Prop :=
  ∃ own, (∀ rest, marks (painted ++ rest) = own ++ marks rest) ∧
    own.filterMap Mark.shown? = shown ∧ Closing own

variable {painted shown text : List Char}

theorem shows_of_notMem (absent : escape ∉ text) : Shows text text := by
  refine ⟨text.map .character, marks_append_of_notMem absent, ?_, closing_characters text⟩
  rw [List.filterMap_map]
  exact List.filterMap_some

theorem Shows.append {other otherShown : List Char} (first : Shows painted shown)
    (second : Shows other otherShown) : Shows (painted ++ other) (shown ++ otherShown) := by
  rcases first with ⟨own, cut, rfl, closing⟩
  rcases second with ⟨otherOwn, otherCut, rfl, otherClosing⟩
  refine ⟨own ++ otherOwn, fun rest => ?_, List.filterMap_append, closing.append otherClosing⟩
  rw [List.append_assoc, cut, otherCut, List.append_assoc]

theorem shows_flatMap {Item : Type} {first second : Item → List Char} {items : List Item}
    (each : ∀ item ∈ items, Shows (first item) (second item)) :
    Shows (items.flatMap first) (items.flatMap second) := by
  induction items with
  | nil => exact shows_of_notMem List.not_mem_nil
  | cons item rest ih =>
    exact (each item List.mem_cons_self).append
      (ih fun other member => each other (List.mem_cons_of_mem item member))

theorem Shows.marks_eq (shows : Shows painted shown) :
    (marks painted).filterMap Mark.shown? = shown ∧ Closing (marks painted) := by
  rcases shows with ⟨own, cut, same, closing⟩
  have whole := cut []
  have nothing : marks [] = [] := rfl
  rw [nothing, List.append_nil, List.append_nil] at whole
  rw [whole]
  exact ⟨same, closing⟩

/-- A style around a text that holds no sequence shows the text. -/
theorem shows_span {parameters : List Char}
    (all : ∀ character ∈ parameters, isParameter character = true) (absent : escape ∉ text) :
    Shows (styleSequence parameters ++ (text ++ styleSequence reset)) text := by
  refine ⟨.style parameters :: (text.map .character ++ [.style reset]), fun rest => ?_, ?_,
    closing_span parameters text⟩
  · rw [List.append_assoc, marks_styleSequence all, List.append_assoc,
      marks_append_of_notMem absent, marks_styleSequence isParameter_of_mem_reset, List.cons_append,
      List.append_assoc, List.singleton_append]
  · rw [List.filterMap_cons, List.filterMap_append, List.filterMap_map]
    exact (List.append_nil _).trans List.filterMap_some

/-- What stands among parameters stands in a sequence, and little else. -/
theorem notMem_styleSequence {parameters : List Char}
    (all : ∀ character ∈ parameters, isParameter character = true) :
    '\n' ∉ styleSequence parameters := by
  have inside : '\n' ∉ parameters := fun member => nomatch all '\n' member
  simp [styleSequence, escape, inside]

end Text

namespace Style

/-- A colored style begins with a sequence. -/
theorem exists_opening (bold : Bool) (red green blue : Nat) :
    ∃ parameters, (∀ character ∈ parameters, Text.isParameter character = true) ∧
      (colored bold red green blue).opening.toList = Text.styleSequence parameters := by
  let weight : String := if bold then "1;" else ""
  have heavy : weight.toList.all Text.isParameter = true := by cases bold <;> decide
  have fixed : "38;2;".toList.all Text.isParameter = true := by decide
  have between : ";".toList.all Text.isParameter = true := by decide
  have number (value : Nat) : (toString value).toList.all Text.isParameter = true := by
    rw [List.all_eq_true]
    intro digit member
    rw [Text.toList_toString] at member
    rw [Text.isParameter, Text.isDigit_of_mem_numeral member, Bool.true_or]
  refine ⟨(weight ++ "38;2;" ++ toString red ++ ";" ++ toString green ++ ";" ++
    toString blue).toList, List.all_eq_true.mp ?_, ?_⟩
  · simp only [String.toList_append, List.all_append, heavy, fixed, between, number, Bool.and_self]
  · have start : "\x1b[".toList = [Text.escape, '['] := by decide
    have final : "m".toList = ['m'] := by decide
    simp only [opening, String.toList_append, start, final, Text.styleSequence, weight,
      List.cons_append, List.nil_append, List.append_assoc]

theorem closing_colored (bold : Bool) (red green blue : Nat) :
    (colored bold red green blue).closing.toList = Text.styleSequence Text.reset := by
  rw [closing]
  decide

/-- A painted text shows the text. -/
theorem shows_paint (style : Style) {text : String} (absent : Text.escape ∉ text.toList) :
    Text.Shows (style.paint text).toList text.toList := by
  cases style with
  | plain =>
    rw [Report.paint_plain]
    exact Text.shows_of_notMem absent
  | colored bold red green blue =>
    rcases exists_opening bold red green blue with ⟨parameters, all, opening⟩
    rw [paint, String.toList_append, String.toList_append, opening, closing_colored,
      List.append_assoc]
    exact Text.shows_span all absent

example : Text.marks ((colored true 1 2 3).paint "]").toList =
    [.style "1;38;2;1;2;3".toList, .character ']', .style Text.reset] := by
  decide

/-- Painting breaks no row. -/
theorem notMem_paint (style : Style) {text : String} (absent : '\n' ∉ text.toList) :
    '\n' ∉ (style.paint text).toList := by
  cases style with
  | plain => rwa [Report.paint_plain]
  | colored bold red green blue =>
    rcases exists_opening bold red green blue with ⟨parameters, all, opening⟩
    rw [paint, String.toList_append, String.toList_append, opening, closing_colored]
    have first := Text.notMem_styleSequence all
    have last := Text.notMem_styleSequence Text.isParameter_of_mem_reset
    simp only [List.mem_append, not_or]
    exact ⟨⟨first, absent⟩, last⟩

end Style

theorem SourceLine.mem_around {source : List Char} {index : Nat} {character : Char}
    (member : character ∈ (around source index).text) :
    character ∈ source ∧ character ≠ '\n' := by
  rcases exists_halves source index with
    ⟨earlier, head, tail, later, front, back, clear, -, -, same⟩
  rw [same, withoutReturns, List.mem_reverse] at member
  have standing := List.mem_reverse.mp ((List.dropWhile_sublist _).subset member)
  refine ⟨?_, fun feed => clear (feed ▸ standing)⟩
  rw [← List.take_append_drop index source, front, back]
  rcases List.mem_append.mp standing with inHead | inTail
  · exact List.mem_append_left _ (List.mem_append_right _ inHead)
  · exact List.mem_append_right _ (List.mem_append_left _ inTail)

theorem Excerpt.mem_snippet {source : String} {column : Nat} {character : Char}
    (member : character ∈ (around source column).snippet) :
    character ∈ source.toList ∧ character ≠ '\n' :=
  SourceLine.mem_around (List.mem_of_mem_take (List.mem_of_mem_drop member))

namespace Report

/-- The rows for one place of an error, each for any palette. -/
def rowsAt (program : Option String) (source : String) (error : BracketError)
    (place : Position) : List (Palette → String) :=
  let excerpt := Excerpt.around source place.column
  [fun palette => palette.error.paint (prefixed program (error.messageAt place)),
    fun palette =>
      "  " ++ palette.location.paint (Text.padLeft 4 (toString place.line) ++ " |") ++ " " ++
        palette.source.paint (String.ofList excerpt.snippet),
    fun palette => "         " ++ palette.caret.paint (Text.spaces excerpt.indent ++ "^")]

variable {program : Option String} {source : String} {error : BracketError}

theorem toList_block (palette : Palette) (place : Position) :
    (block program source error palette place).toList =
      (rowsAt program source error place).flatMap fun row => (row palette).toList ++ ['\n'] := by
  simp only [block, context, rowsAt, List.flatMap_cons, List.flatMap_nil, String.toList_append,
    List.append_assoc, List.append_nil]
  rfl

/-- A report is its rows, one below the other. -/
theorem toList_brackets (palette : Palette) :
    (brackets program source error palette).toList =
      (error.places.flatMap (rowsAt program source error)).flatMap fun row =>
        (row palette).toList ++ ['\n'] := by
  rw [brackets, String.toList_join, List.flatMap_map, List.flatMap_assoc]
  exact congrArg (List.flatMap · error.places) (funext fun place => toList_block palette place)

/-- A text that stays one row in every palette and always shows the same. -/
structure Faithful (row : Palette → String) : Prop where
  shows : ∀ palette, Text.Shows (row palette).toList (row .plain).toList
  whole : ∀ palette, '\n' ∉ (row palette).toList

theorem Faithful.append {first second : Palette → String} (before : Faithful first)
    (behind : Faithful second) : Faithful fun palette => first palette ++ second palette where
  shows palette := by
    rw [String.toList_append, String.toList_append]
    exact (before.shows palette).append (behind.shows palette)
  whole palette := by
    rw [String.toList_append, List.mem_append, not_or]
    exact ⟨before.whole palette, behind.whole palette⟩

/-- A text without the characters that would be marks or end its row. -/
def Clean (text : String) : Prop := Text.escape ∉ text.toList ∧ '\n' ∉ text.toList

theorem Clean.append {first second : String} (before : Clean first) (behind : Clean second) :
    Clean (first ++ second) := by
  simp only [Clean, String.toList_append, List.mem_append, not_or]
  exact ⟨⟨before.1, behind.1⟩, before.2, behind.2⟩

theorem clean_toString (number : Nat) : Clean (toString number) := by
  rw [Clean, Text.toList_toString]
  exact ⟨Text.notMem_numeral (by decide) number, Text.notMem_numeral (by decide) number⟩

theorem clean_spaces (count : Nat) : Clean (Text.spaces count) := by
  rw [Clean, Text.toList_spaces]
  exact ⟨fun member => absurd (List.eq_of_mem_replicate member) (by decide),
    fun member => absurd (List.eq_of_mem_replicate member) (by decide)⟩

theorem Clean.padLeft {text : String} (clean : Clean text) (width : Nat) :
    Clean (Text.padLeft width text) :=
  (clean_spaces _).append clean

theorem clean_messageAt (error : BracketError) (place : Position) :
    Clean (error.messageAt place) := by
  have placed : Clean place.describe :=
    ((Clean.append ⟨by decide, by decide⟩ (clean_toString place.line)).append
      ⟨by decide, by decide⟩).append (clean_toString place.column)
  have first : Clean "Error on " := ⟨by decide, by decide⟩
  have closes : Clean ": closing ']' without a matching '['" := ⟨by decide, by decide⟩
  have opens : Clean ": '[' is never closed with a matching ']'" := ⟨by decide, by decide⟩
  cases error with
  | unmatchedClose => exact (first.append placed).append closes
  | unmatchedOpen => exact (first.append placed).append opens

theorem Clean.prefixed {message : String} (clean : Clean message)
    (named : ∀ name ∈ program, Clean name) : Clean (prefixed program message) := by
  cases program with
  | none => exact clean
  | some name => exact ((named name rfl).append ⟨by decide, by decide⟩).append clean

section Faithful

variable {text : String}

theorem faithful_text (clean : Clean text) : Faithful fun _ => text :=
  ⟨fun _ => Text.shows_of_notMem clean.1, fun _ => clean.2⟩

/-- Painting with a style that is plain in the plain palette. -/
theorem faithful_paint (style : Palette → Style) (plain : style .plain = .plain)
    (clean : Clean text) : Faithful fun palette => (style palette).paint text where
  shows palette := by
    rw [plain, paint_plain]
    exact Style.shows_paint _ clean.1
  whole palette := Style.notMem_paint _ clean.2

end Faithful

theorem faithful_rowsAt (place : Position) (error : BracketError)
    (clear : Text.escape ∉ source.toList) (named : ∀ name ∈ program, Clean name) :
    ∀ row ∈ rowsAt program source error place, Faithful row := by
  have message := (clean_messageAt error place).prefixed named
  have number : Clean (Text.padLeft 4 (toString place.line) ++ " |") :=
    ((clean_toString place.line).padLeft 4).append ⟨by decide, by decide⟩
  have shown : Clean (String.ofList (Excerpt.around source place.column).snippet) := by
    rw [Clean, String.toList_ofList]
    exact ⟨fun member => clear (Excerpt.mem_snippet member).1,
      fun member => (Excerpt.mem_snippet member).2 rfl⟩
  have caret : Clean (Text.spaces (Excerpt.around source place.column).indent ++ "^") :=
    (clean_spaces _).append ⟨by decide, by decide⟩
  have blank : Faithful fun _ => " " := faithful_text ⟨by decide, by decide⟩
  have indentation : Faithful fun _ => "  " := faithful_text ⟨by decide, by decide⟩
  have margin : Faithful fun _ => "         " := faithful_text ⟨by decide, by decide⟩
  refine List.forall_mem_cons.mpr ⟨faithful_paint Palette.error rfl message,
    List.forall_mem_cons.mpr ⟨?_, List.forall_mem_singleton.mpr ?_⟩⟩
  · exact ((indentation.append (faithful_paint Palette.location rfl number)).append
      blank).append (faithful_paint Palette.source rfl shown)
  · exact margin.append (faithful_paint Palette.caret rfl caret)

theorem faithful_rows (program : Option String) (source : String) (error : BracketError)
    (clear : Text.escape ∉ source.toList) (named : ∀ name ∈ program, Clean name) :
    ∀ row ∈ error.places.flatMap (rowsAt program source error), Faithful row := by
  intro row member
  rcases List.mem_flatMap.mp member with ⟨place, -, standing⟩
  exact faithful_rowsAt place error clear named row standing

/-- Rows that hold no line feed are what lies between the line feeds of a
report. -/
theorem splitOn_brackets
    (faithful : ∀ row ∈ error.places.flatMap (rowsAt program source error), Faithful row)
    (palette : Palette) :
    List.splitOn '\n' (brackets program source error palette).toList =
      (error.places.flatMap (rowsAt program source error)).map (fun row => (row palette).toList) ++
        [[]] := by
  rw [toList_brackets, ← List.append_nil (List.flatMap _ _),
    Text.splitOn_flatMap fun row member => (faithful row member).whole _, List.splitOn_nil]

/-- Colors change nothing but the paint.  What a colored report shows is the
plain report, and in none of its rows is a style left open. -/
theorem colors_only_paint (program : Option String) (source : String) (error : BracketError)
    (clear : Text.escape ∉ source.toList)
    (named : ∀ name ∈ program, Text.escape ∉ name.toList ∧ '\n' ∉ name.toList) :
    String.ofList
        (Text.withoutStyles (brackets program source error (.forColor true)).toList) =
      brackets program source error (.forColor false) ∧
    ∀ row ∈ List.splitOn '\n' (brackets program source error (.forColor true)).toList,
      Text.Closing (Text.marks row) := by
  have faithful := faithful_rows program source error clear named
  constructor
  · apply String.toList_inj.mp
    rw [String.toList_ofList, toList_brackets, toList_brackets]
    refine (Text.shows_flatMap fun row member => ?_).marks_eq.1
    exact ((faithful row member).shows _).append (Text.shows_of_notMem (by decide))
  · rw [splitOn_brackets faithful]
    intro row member
    rcases List.mem_append.mp member with standing | last
    · rcases List.mem_map.mp standing with ⟨painted, inside, rfl⟩
      exact ((faithful painted inside).shows _).marks_eq.2
    · cases List.mem_singleton.mp last
      trivial

/-- Two open brackets, on two rows, in a report that names the program.  The
row with a caret is painted, and the paint ends with the row. -/
theorem colors_only_paint_opens :
    let report (color : Bool) : String :=
      brackets (some "bftape") "[\n[é" (.unmatchedOpen [⟨0, 0⟩, ⟨1, 2⟩]) (.forColor color)
    let row : List Char := "         \x1b[1;38;2;249;226;175m^\x1b[0m".toList
    Program.parse "[\n[é" = .error (.unmatchedOpen [⟨0, 0⟩, ⟨1, 2⟩]) ∧
    String.ofList (Text.withoutStyles (report true).toList) = report false ∧
    report false =
      "bftape: Error on line 0, column 0: '[' is never closed with a matching ']'\n" ++
        "     0 | [\n         ^\n" ++
        "bftape: Error on line 1, column 2: '[' is never closed with a matching ']'\n" ++
        "     1 | [é\n         ^\n" ∧
    row ∈ List.splitOn '\n' (report true).toList ∧
    Text.marks row = List.replicate 9 (.character ' ') ++
      [.style "1;38;2;249;226;175".toList, .character '^', .style "0".toList] ∧
    Text.Closing (Text.marks row) := by
  intro report row
  have named : ∀ name ∈ some "bftape", Text.escape ∉ name.toList ∧ '\n' ∉ name.toList := by
    rintro name ⟨⟩
    decide
  have inside : row ∈ List.splitOn '\n' (report true).toList := by
    rw [splitOn_brackets (faithful_rows _ _ _ (by decide) named)]
    exact List.mem_append_left _ (by decide +kernel)
  obtain ⟨shown, closing⟩ := colors_only_paint (some "bftape") "[\n[é"
    (.unmatchedOpen [⟨0, 0⟩, ⟨1, 2⟩]) (by decide) named
  exact ⟨rfl, shown, by decide +kernel, inside, by decide +kernel, closing row inside⟩

end Report
end RingTape
