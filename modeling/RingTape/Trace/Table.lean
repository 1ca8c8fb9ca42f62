import RingTape.Configuration
import RingTape.Console
import RingTape.Text.Pieces
import RingTape.Trace

namespace RingTape
namespace Trace

/-!
# Reading the trace table

The rows of a table are aligned for the eye, and wide numbers push their rows
out of line.  A row can be read all the same: its bars cut it into columns,
its blanks belong to no column, and the number that it announces, if it
announces one, is its last word.  `readRow?` goes by this alone.  It knows
neither the width of a column nor the wording of an action.

The main statement is that a table reads as the rows it was made of
(`readTable_table`).  What a row says can then be compared with the
configuration that follows (`Reading.Agrees`).
-/

/-- A table: the header, the rows, and the completion notice if the run came
to its end. -/
def table (mode : Mode) (rows : List Row) (concluded : Bool) : String :=
  header ++ String.join (rows.map (Row.describe mode)) ++
    if concluded then Console.completionNotice else ""

theorem table_nil (mode : Mode) : table mode [] false = header := by
  simp only [table, List.map_nil, String.join_nil, Bool.false_eq_true, if_false,
    String.append_empty]

theorem table_concat (mode : Mode) (rows : List Row) (row : Row) :
    table mode (rows ++ [row]) false = table mode rows false ++ row.describe mode := by
  simp only [table, List.map_append, List.map_cons, List.map_nil, String.join_append,
    String.join_cons, String.join_nil, Bool.false_eq_true, if_false, String.append_empty,
    String.append_assoc]

theorem table_concluded (mode : Mode) (rows : List Row) :
    table mode rows true = table mode rows false ++ Console.completionNotice := by
  simp only [table, if_true, Bool.false_eq_true, if_false, String.append_empty]

/-- What a row says: the machine before the instruction, the instruction, and
the number in which the description of its effect ends. -/
structure Reading where
  before : Snapshot
  instruction : Instruction
  announced : Option Nat
  deriving DecidableEq, Repr

/-- The number that an action announces: the index that the pointer moved to,
the value that a cell took, or the bracket that control went to. -/
def Action.announced? : Action → Option Nat
  | moved pointer => some pointer
  | incremented _ _ after | decremented _ _ after => some after.toNat
  | withheld _ => none
  | simulated => some 0
  | skipped bracket | repeated bracket => some bracket
  | entered | left => none

def Row.reading (row : Row) : Reading :=
  ⟨row.before, row.instruction, row.action.announced?⟩

/-- What a row says is true of the configuration after its instruction.
Control that goes to a bracket arrives behind it. -/
def Reading.Agrees (reading : Reading) (after : Configuration) : Prop :=
  match reading.instruction with
  | .command .moveLeft | .command .moveRight => reading.announced = some after.tape.pointer
  | .command .increment | .command .decrement | .command .input =>
    reading.announced = some after.tape.current.toNat
  | .command .output => reading.announced = none
  | .loopStart | .loopEnd =>
    match reading.announced with
    | some bracket => after.position = bracket + 1
    | none => after.position = reading.before.position + 1

/-! ## The reader -/

/-- The instruction that stands alone in a column. -/
def readInstruction? : List Char → Option Instruction
  | [single] => Instruction.ofChar? single
  | _ => none

/-- The number that a text ends in. -/
def readAnnounced? (text : List Char) : Option Nat :=
  (List.splitOn ' ' text).getLast?.bind Text.natural?

def readRow? (text : List Char) : Option Reading :=
  match List.splitOn '|' text with
  | step :: position :: pointer :: cell :: instruction :: _ :: _ => do
    let step ← Text.natural? (Text.trim step)
    let position ← Text.natural? (Text.trim position)
    let pointer ← Text.natural? (Text.trim pointer)
    let cell ← Text.unsigned? Mode.cellBound (Text.trim cell)
    let instruction ← readInstruction? (Text.trim instruction)
    some ⟨⟨step, position, pointer, UInt8.ofNat cell⟩, instruction, readAnnounced? text⟩
  | _ => none

/-- What the rows below the two header lines say.  Lines that are no rows say
nothing. -/
def readTable (text : List Char) : List Reading :=
  ((List.splitOn '\n' text).drop 2).filterMap readRow?

/-! ## The shape of a row -/

/-- A number in its column, up to the bar behind it. -/
def column (before width value : Nat) : List Char :=
  List.replicate before ' ' ++
    (Text.numeral value ++
      List.replicate (width - (Text.numeral value).length + 1) ' ')

/-- The columns of a row, with this text in the last of them. -/
def Row.columns (row : Row) (description : List Char) : List Char :=
  column 0 4 row.before.step ++ '|' :: (
  column 1 3 row.before.position ++ '|' :: (
  column 1 3 row.before.pointer ++ '|' :: (
  column 1 4 row.before.cell.toNat ++ '|' :: (
  List.replicate 2 ' ' ++ ([row.instruction.toChar] ++ List.replicate 4 ' ') ++ '|' :: (
  ' ' :: description)))))

/-- A row without the end of its line. -/
def Row.line (mode : Mode) (row : Row) : List Char :=
  row.columns (row.action.describe mode).toList

theorem columns_append (row : Row) (first second : List Char) :
    row.columns (first ++ second) = row.columns first ++ second := by
  simp only [Row.columns, List.append_assoc, List.cons_append]

theorem toList_padRight (width value : Nat) :
    (Text.padRight width (toString value)).toList =
      Text.numeral value ++ List.replicate (width - (Text.numeral value).length) ' ' := by
  rw [Text.padRight, String.toList_append, Text.toList_spaces, Text.toList_toString,
    ← String.length_toList, Text.toList_toString]

theorem toList_describe (mode : Mode) (row : Row) :
    (row.describe mode).toList = row.line mode ++ ['\n'] := by
  simp only [Row.describe, Row.line, Row.columns, column, String.toList_append, toList_padRight,
    String.toList_singleton, List.replicate_succ']
  simp

/-! ## Reading one row -/

theorem notMem_column {character : Char} (other : character.isDigit = false)
    (solid : character ≠ ' ') (before width value : Nat) :
    character ∉ column before width value := by
  have spaces (count : Nat) : character ∉ List.replicate count ' ' :=
    fun member => solid (List.eq_of_mem_replicate member)
  rw [column, List.mem_append, List.mem_append]
  rintro (member | member | member)
  · exact spaces before member
  · exact Text.notMem_numeral other value member
  · exact spaces _ member

theorem trim_column (before width value : Nat) :
    Text.trim (column before width value) = Text.numeral value :=
  Text.trim_padded (fun _ member => Text.isBlank_of_isDigit (Text.isDigit_of_mem_numeral member))
    (Text.numeral_ne_nil value) before _

theorem trim_instruction (instruction : Instruction) :
    Text.trim (List.replicate 2 ' ' ++ ([instruction.toChar] ++ List.replicate 4 ' ')) =
      [instruction.toChar] := by
  apply Text.trim_padded _ (List.cons_ne_nil _ _)
  intro character member
  rw [List.mem_singleton.mp member]
  rcases instruction with (_ | _ | _ | _ | _ | _) | _ | _ <;> decide

/-- The description of an action ends in a word of its own, which is a number
if the action announces one. -/
theorem exists_lastWord (mode : Mode) (action : Action) :
    ∃ front word : String, action.describe mode = front ++ " " ++ word ∧ ' ' ∉ word.toList ∧
      Text.natural? word.toList = action.announced? := by
  have numbered (value : Nat) : ' ' ∉ (toString value).toList ∧
      Text.natural? (toString value).toList = some value := by
    rw [Text.toList_toString]
    exact ⟨Text.notMem_numeral (by decide) value, Text.natural?_numeral value⟩
  have changed (verb : String) (pointer before after : Nat) :
      verb ++ toString pointer ++ "] from " ++ toString before ++ " to " ++ toString after =
        verb ++ toString pointer ++ "] from " ++ toString before ++ " to" ++ " " ++
          toString after := by
    have gap : " to " = " to" ++ " " := by decide
    rw [gap, ← String.append_assoc]
  cases action with
  | moved pointer =>
    have gap : "Moved pointer to index " = "Moved pointer to index" ++ " " := by decide
    exact ⟨_, _, congrArg (· ++ toString pointer) gap, numbered pointer⟩
  | incremented pointer before after =>
    exact ⟨_, _, changed "Increment cell[" pointer before.toNat after.toNat, numbered _⟩
  | decremented pointer before after =>
    exact ⟨_, _, changed "Decrement cell[" pointer before.toNat after.toNat, numbered _⟩
  | withheld cell =>
    have gap : " (suppressed in debug)" = " (suppressed in" ++ " " ++ "debug)" := by decide
    have text : (Action.withheld cell).describe mode =
      "Output " ++ Action.showCell mode cell ++ " (suppressed in debug)" := rfl
    rw [gap, ← String.append_assoc, ← String.append_assoc] at text
    have silent : Text.natural? "debug)".toList = none := by decide
    exact ⟨_, _, text, by decide, silent⟩
  | simulated =>
    have gap : "Read input -> simulated 0" = "Read input -> simulated" ++ " " ++ "0" := by decide
    exact ⟨_, _, gap, by decide, by decide⟩
  | skipped bracket =>
    have gap : "Cell is 0; skip loop to matching ']' at IP " =
      "Cell is 0; skip loop to matching ']' at IP" ++ " " := by decide
    exact ⟨_, _, congrArg (· ++ toString bracket) gap, numbered bracket⟩
  | entered =>
    have gap : "Enter loop (cell != 0)" = "Enter loop (cell !=" ++ " " ++ "0)" := by decide
    exact ⟨_, _, gap, by decide, by decide⟩
  | left =>
    have gap : "Exit loop (cell is 0)" = "Exit loop (cell is" ++ " " ++ "0)" := by decide
    exact ⟨_, _, gap, by decide, by decide⟩
  | repeated bracket =>
    have gap : "Cell != 0; jump back to matching '[' at IP " =
      "Cell != 0; jump back to matching '[' at IP" ++ " " := by decide
    exact ⟨_, _, congrArg (· ++ toString bracket) gap, numbered bracket⟩

theorem readAnnounced?_line (mode : Mode) (row : Row) :
    readAnnounced? (row.line mode) = row.action.announced? := by
  rcases exists_lastWord mode row.action with ⟨front, word, described, alone, number⟩
  have split : row.line mode = row.columns front.toList ++ ' ' :: word.toList := by
    rw [Row.line, described, String.toList_append, String.toList_append, List.append_assoc,
      columns_append]
    rfl
  rw [readAnnounced?, split, List.splitOn_append_cons_self, List.splitOn_eq_singleton alone,
    List.getLast?_concat, Option.bind_some, number]

theorem readRow?_line (mode : Mode) (row : Row) :
    readRow? (row.line mode) = some row.reading := by
  have bar (before width value : Nat) : '|' ∉ column before width value :=
    notMem_column (by decide) (by decide) before width value
  have columns : ∃ described more, List.splitOn '|' (row.line mode) =
      column 0 4 row.before.step :: column 1 3 row.before.position ::
        column 1 3 row.before.pointer :: column 1 4 row.before.cell.toNat ::
          (List.replicate 2 ' ' ++ ([row.instruction.toChar] ++ List.replicate 4 ' ')) ::
            described :: more := by
    have sign : '|' ∉ List.replicate 2 ' ' ++ ([row.instruction.toChar] ++ List.replicate 4 ' ') := by
      rcases row.instruction with (_ | _ | _ | _ | _ | _) | _ | _ <;> decide
    rcases List.exists_cons_of_ne_nil (List.splitOn_ne_nil '|'
      (' ' :: (row.action.describe mode).toList)) with ⟨described, more, last⟩
    refine ⟨described, more, ?_⟩
    rw [Row.line, Row.columns, List.splitOn_append_cons_self_of_not_mem (bar _ _ _),
      List.splitOn_append_cons_self_of_not_mem (bar _ _ _),
      List.splitOn_append_cons_self_of_not_mem (bar _ _ _),
      List.splitOn_append_cons_self_of_not_mem (bar _ _ _),
      List.splitOn_append_cons_self_of_not_mem sign, last]
  rcases columns with ⟨described, more, columns⟩
  have announced := readAnnounced?_line mode row
  have small : row.before.cell.toNat < Mode.cellBound := row.before.cell.toNat_lt
  simp only [readRow?, columns, trim_column, trim_instruction, Text.natural?_numeral,
    Text.unsigned?_numeral small, readInstruction?, Instruction.ofChar?_toChar, announced,
    Option.bind_eq_bind, Option.bind_some, UInt8.ofNat_toNat]
  rfl

/-! ## Reading a table -/

/-- The description of an action stays on its line. -/
theorem notMem_describe (mode : Mode) (action : Action) :
    '\n' ∉ (action.describe mode).toList := by
  have number (value : Nat) : '\n' ∉ (toString value).toList := by
    rw [Text.toList_toString]
    exact Text.notMem_numeral (by decide) value
  have shown (cell : UInt8) : '\n' ∉ (Action.showCell mode cell).toList := by
    cases mode with
    | character => exact Text.notMem_quoted cell
    | numeric => exact number cell.toNat
  have joined {first second : String} (left : '\n' ∉ first.toList)
      (right : '\n' ∉ second.toList) : '\n' ∉ (first ++ second).toList := by
    rw [String.toList_append, List.mem_append, not_or]
    exact ⟨left, right⟩
  have changed (verb : String) (plain : '\n' ∉ verb.toList) (pointer before after : Nat) :
      '\n' ∉ (verb ++ toString pointer ++ "] from " ++ toString before ++ " to " ++
        toString after).toList :=
    joined (joined (joined (joined (joined plain (number pointer)) (by decide)) (number before))
      (by decide)) (number after)
  cases action with
  | moved pointer => exact joined (by decide) (number pointer)
  | incremented pointer before after => exact changed _ (by decide) pointer _ _
  | decremented pointer before after => exact changed _ (by decide) pointer _ _
  | withheld cell => exact joined (joined (by decide) (shown cell)) (by decide)
  | simulated => exact (by decide : '\n' ∉ "Read input -> simulated 0".toList)
  | skipped bracket => exact joined (by decide) (number bracket)
  | entered => exact (by decide : '\n' ∉ "Enter loop (cell != 0)".toList)
  | left => exact (by decide : '\n' ∉ "Exit loop (cell is 0)".toList)
  | repeated bracket => exact joined (by decide) (number bracket)

theorem notMem_line (mode : Mode) (row : Row) : '\n' ∉ row.line mode := by
  have part (before width value : Nat) : '\n' ∉ column before width value :=
    notMem_column (by decide) (by decide) before width value
  have sign : '\n' ∉ List.replicate 2 ' ' ++ ([row.instruction.toChar] ++ List.replicate 4 ' ') := by
    rcases row.instruction with (_ | _ | _ | _ | _ | _) | _ | _ <;> decide
  have joined {first second : List Char} {bar : Char} (left : '\n' ∉ first) (other : '\n' ≠ bar)
      (right : '\n' ∉ second) : '\n' ∉ first ++ bar :: second := by
    rw [List.mem_append, List.mem_cons, not_or, not_or]
    exact ⟨left, other, right⟩
  exact joined (part _ _ _) (by decide) (joined (part _ _ _) (by decide)
    (joined (part _ _ _) (by decide) (joined (part _ _ _) (by decide)
      (joined sign (by decide) (@joined [] _ _ (by decide) (by decide)
        (notMem_describe mode row.action))))))

/-- Each row of a table is one of its lines. -/
theorem splitOn_rows (mode : Mode) (rows : List Row) (rest : List Char) :
    List.splitOn '\n' (rows.flatMap (fun row => (row.describe mode).toList) ++ rest) =
      rows.map (Row.line mode) ++ List.splitOn '\n' rest := by
  simp only [toList_describe]
  exact Text.splitOn_flatMap (fun row _ => notMem_line mode row) rest

/-- A table reads as the rows that it was made of. -/
theorem readTable_table (mode : Mode) (rows : List Row) (concluded : Bool) :
    readTable (table mode rows concluded).toList = rows.map Row.reading := by
  have lines : header = "STEP | IP  | PTR | CELL | INSTR | ACTION" ++ "\n" ++
      ("-----+-----+-----+------+-------+------------------------------------------------" ++
        "\n") := by decide
  have names : '\n' ∉ "STEP | IP  | PTR | CELL | INSTR | ACTION".toList := by decide +kernel
  have rule : '\n' ∉
      "-----+-----+-----+------+-------+------------------------------------------------".toList := by
    decide +kernel
  have ending : "\n".toList = ['\n'] := by decide
  have rest :
      (List.splitOn '\n' (if concluded then Console.completionNotice else "").toList).filterMap
        readRow? = [] := by
    cases concluded <;> decide
  have each : (rows.map (Row.line mode)).filterMap readRow? = rows.map Row.reading := by
    rw [List.filterMap_map, ← List.filterMap_eq_map]
    exact congrArg (fun reader => rows.filterMap reader) (funext (readRow?_line mode))
  simp only [readTable, table, lines, String.toList_append, String.toList_join, List.flatMap_map,
    ending, List.append_assoc, List.cons_append, List.nil_append]
  rw [List.splitOn_append_cons_self_of_not_mem names,
    List.splitOn_append_cons_self_of_not_mem rule, splitOn_rows, List.drop_succ_cons,
    List.drop_succ_cons, List.drop_zero, List.filterMap_append, each, rest, List.append_nil]

end Trace
end RingTape
