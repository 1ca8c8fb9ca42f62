import RingTape.Proofs.Carets
import RingTape.Report.Search

namespace RingTape

/-!
# The window around any column

A report can be asked for at any place, also at one that no parser would
name: on a line feed, in the carriage returns at the end of a line, or far
behind the source.  What it shows is determined by the line that holds the
column and by nothing else (`Report.window_around_place`).

The search in bytes comes to the same.  The walk is described by two lemmas,
one for a stretch without line feeds and one for a stretch that ends where a
line ends.  From these the offsets of both slices are lengths of parts of
the source, so they are between characters, and no slice is missed.
-/

namespace SourceLine

/-- Dropping the carriage returns leaves a text that does not end with one. -/
theorem exists_withoutReturns (line : List Char) :
    ∃ returns, line = withoutReturns line ++ List.replicate returns '\r' ∧
      (withoutReturns line).getLast? ≠ some '\r' := by
  refine ⟨(line.reverse.takeWhile (· == '\r')).length, ?_, ?_⟩
  · have same : (line.reverse.takeWhile (· == '\r')) =
        List.replicate (line.reverse.takeWhile (· == '\r')).length '\r' := by
      refine List.eq_replicate_iff.mpr ⟨rfl, fun character member => ?_⟩
      exact beq_iff_eq.mp (List.all_eq_true.mp List.all_takeWhile character member)
    rw [← List.reverse_replicate, ← same, withoutReturns, ← List.reverse_append,
      List.takeWhile_append_dropWhile, List.reverse_reverse]
  · intro ends
    have stops := List.head?_dropWhile_not (· == '\r') line.reverse
    rw [withoutReturns, List.getLast?_reverse] at ends
    rw [ends] at stops
    cases stops

/-- There is only one such text. -/
theorem withoutReturns_append {text : List Char} (trimmed : text.getLast? ≠ some '\r')
    (returns : Nat) : withoutReturns (text ++ List.replicate returns '\r') = text := by
  have stops : text.reverse.dropWhile (· == '\r') = text.reverse := by
    cases reversed : text.reverse with
    | nil => rfl
    | cons last rest =>
      refine List.dropWhile_cons_of_neg fun same => trimmed ?_
      rw [← List.head?_reverse, reversed, List.head?_cons, beq_iff_eq.mp same]
  rw [withoutReturns, List.reverse_append, List.reverse_replicate,
    List.dropWhile_append_of_pos, stops, List.reverse_reverse]
  intro character member
  exact beq_iff_eq.mpr (List.eq_of_mem_replicate member)

variable {source : List Char} {column : Nat}

/-- Every column is held by a line. -/
theorem nonempty_holding (source : List Char) (column : Nat) :
    Nonempty (Holding source column) := by
  rcases exists_halves source column with
    ⟨earlier, head, tail, later, front, back, clear, begins, ends, -⟩
  rcases exists_withoutReturns (head ++ tail) with ⟨returns, parts, trimmed⟩
  have length := congrArg List.length parts
  have reached := congrArg List.length front
  have left := congrArg List.length back
  simp only [List.length_append, List.length_take, List.length_drop, List.length_replicate]
    at length reached left
  refine ⟨⟨earlier, withoutReturns (head ++ tail), returns, later, ?_, ?_, trimmed, begins, ends,
    by omega, ?_⟩⟩
  · rw [← parts, List.append_assoc earlier, List.append_assoc head, ← back, ← List.append_assoc,
      ← front, List.take_append_drop]
  · intro member
    exact clear (parts ▸ List.mem_append_left _ member)
  · by_cases none : later = []
    · exact .inl none
    · have some := List.length_pos_iff.mpr none
      exact .inr (by omega)

namespace Holding

variable (line : Holding source column)

/-- The text of the line and what was dropped behind it. -/
def piece : List Char := line.text ++ List.replicate line.returns '\r'

theorem notMem_piece : '\n' ∉ line.piece := by
  intro member
  rcases List.mem_append.mp member with inside | dropped
  · exact line.clear inside
  · exact absurd (List.eq_of_mem_replicate dropped) (by decide)

theorem length_piece : line.piece.length = line.text.length + line.returns := by
  rw [piece, List.length_append, List.length_replicate]

theorem whole_eq : source = line.earlier ++ (line.piece ++ line.later) := by
  rw [← List.append_assoc]
  exact line.whole

/-- Where the line ends, either the source ends or the column has been met. -/
theorem later_eq_nil_or : line.later = [] ∨ line.caret - line.piece.length = 0 := by
  rcases line.reaches with last | within
  · exact .inl last
  · rw [length_piece, caret]
    exact .inr (by omega)

theorem take_eq : source.take column = line.earlier ++ line.piece.take line.caret := by
  have nothing : line.later.take (line.caret - line.piece.length) = [] := by
    rcases line.later_eq_nil_or with last | within
    · rw [last, List.take_nil]
    · rw [within, List.take_zero]
  calc source.take column
      = (line.earlier ++ (line.piece ++ line.later)).take column := congrArg _ line.whole_eq
    _ = line.earlier ++ (line.piece ++ line.later).take line.caret := by
      rw [List.take_append, List.take_of_length_le line.behind, caret]
    _ = line.earlier ++ line.piece.take line.caret := by
      rw [List.take_append, nothing, List.append_nil]

theorem drop_eq : source.drop column = line.piece.drop line.caret ++ line.later := by
  have all : line.later.drop (line.caret - line.piece.length) = line.later := by
    rcases line.later_eq_nil_or with last | within
    · rw [last, List.drop_nil]
    · rw [within, List.drop_zero]
  calc source.drop column
      = (line.earlier ++ (line.piece ++ line.later)).drop column := congrArg _ line.whole_eq
    _ = (line.piece ++ line.later).drop line.caret := by
      rw [List.drop_append, List.drop_of_length_le line.behind, List.nil_append, caret]
    _ = line.piece.drop line.caret ++ line.later := by
      rw [List.drop_append, all]

/-- The search finds the line. -/
theorem around_eq : around source column = ⟨line.text, line.earlier.length⟩ := by
  have headClear : '\n' ∉ line.piece.take line.caret := fun member =>
    line.notMem_piece (List.mem_of_mem_take member)
  have number : (source.take column).count '\n' = line.earlier.count '\n' := by
    rw [line.take_eq, List.count_append, List.count_eq_zero_of_not_mem headClear, Nat.add_zero]
  have found := numbered?_append line.notMem_piece line.begins line.ends
  rw [← line.whole_eq, ← number, numbered?_count, piece, withoutReturns_append line.trimmed]
    at found
  exact Option.some.inj found

end Holding
end SourceLine

namespace Walk

/-- Up to a column, the walk takes the characters in front of it. -/
theorem upTo_eq_foldl {column : Nat} {text : List Char} {walk : Walk}
    (ahead : walk.column ≤ column) :
    upTo column text walk = (text.take (column - walk.column)).foldl next walk := by
  induction text generalizing walk with
  | nil => rw [upTo, List.take_nil, List.foldl_nil]
  | cons character rest ih =>
    rw [upTo]
    split
    · next here => rw [here, Nat.sub_self, List.take_zero, List.foldl_nil]
    · next further =>
      have within : walk.column < column := Nat.lt_of_le_of_ne ahead further
      have left : column - walk.column = column - (walk.next character).column + 1 := by
        change _ = column - (walk.column + 1) + 1
        omega
      rw [ih (Nat.succ_le_of_lt within), left, List.take_succ_cons, List.foldl_cons]

/-- On a stretch without line feeds the line stays the same. -/
theorem foldl_next {text : List Char} (clear : '\n' ∉ text) (walk : Walk) :
    text.foldl next walk =
      { walk with
        column := walk.column + text.length
        byte := walk.byte + Text.byteLength text } := by
  induction text generalizing walk with
  | nil => rfl
  | cons character rest ih =>
    rw [List.mem_cons, not_or] at clear
    have stays : character ≠ '\n' := Ne.symm clear.1
    rw [List.foldl_cons, ih clear.2, List.length_cons, Text.byteLength_cons]
    simp only [next, stays, if_false, Walk.mk.injEq, and_true]
    omega

/-- Both counts go on over any stretch. -/
theorem counts_foldl_next (text : List Char) (walk : Walk) :
    (text.foldl next walk).column = walk.column + text.length ∧
      (text.foldl next walk).byte = walk.byte + Text.byteLength text := by
  induction text generalizing walk with
  | nil => exact ⟨rfl, rfl⟩
  | cons character rest ih =>
    have later := ih (walk.next character)
    rw [List.foldl_cons, List.length_cons, Text.byteLength_cons, later.1, later.2]
    constructor <;> simp only [next] <;> omega

/-- Where a line begins, the walk knows it. -/
theorem foldl_next_of_begins {text : List Char}
    (begins : text = [] ∨ ∃ lines, text = lines ++ ['\n']) :
    text.foldl next {} =
      ⟨text.length, Text.byteLength text, Text.byteLength text, text.length⟩ := by
  rcases begins with rfl | ⟨lines, rfl⟩
  · rfl
  · have counts := counts_foldl_next lines {}
    have feed : '\n'.utf8Size = 1 := by decide
    rw [List.foldl_append, List.foldl_cons, List.foldl_nil, List.length_append,
      Text.byteLength_append]
    simp only [next, counts, feed, Text.byteLength_cons, Text.byteLength_nil, if_true,
      List.length_singleton, Nat.zero_add]

end Walk

namespace SourceLine

variable {source : List Char} {column : Nat}

/-- The walk stops at the column and knows where the line begins. -/
theorem Holding.upTo_eq (line : Holding source column) :
    Walk.upTo column source {} =
      ⟨(source.take column).length, Text.byteLength (source.take column),
        Text.byteLength line.earlier, line.earlier.length⟩ := by
  have clear : '\n' ∉ line.piece.take line.caret := fun member =>
    line.notMem_piece (List.mem_of_mem_take member)
  rw [Walk.upTo_eq_foldl (Nat.zero_le column)]
  change (source.take column).foldl Walk.next {} = _
  rw [line.take_eq, List.foldl_append, Walk.foldl_next_of_begins line.begins,
    Walk.foldl_next clear, List.length_append, Text.byteLength_append]

/-- The line feed that is found from the column on is the end of the line. -/
theorem Holding.stopByte_eq (line : Holding source column) :
    stopByte source (Text.byteLength (source.take column)) (source.drop column) =
      Text.byteLength (line.earlier ++ line.piece) := by
  have clear : '\n' ∉ line.piece.drop line.caret := fun member =>
    line.notMem_piece (List.mem_of_mem_drop member)
  rw [stopByte, line.drop_eq]
  rcases line.ends with last | ⟨lines, feed⟩
  · rw [last, List.append_nil, Text.cutOnce?_eq_none_iff.mpr clear]
    have parts := line.whole_eq
    rw [last, List.append_nil] at parts
    exact congrArg Text.byteLength parts
  · rw [feed, Text.cutOnce?_of_notMem clear]
    change Text.byteLength (source.take column) + Text.byteLength (line.piece.drop line.caret) = _
    rw [line.take_eq, ← Text.byteLength_append, List.append_assoc, List.take_append_drop]

/-- Both slices of the search exist, and the second one is the line. -/
theorem inBytes?_eq (source : List Char) (column : Nat) :
    inBytes? source column = some (around source column) := by
  rcases nonempty_holding source column with ⟨line⟩
  have ahead : Text.slice? (Text.byteLength (source.take column)) (Text.byteLength source)
      source = some (source.drop column) := by
    refine Text.slice?_eq_some_iff.mpr ⟨source.take column, [], ?_, rfl, ?_⟩
    · rw [List.append_nil, List.take_append_drop]
    · rw [List.take_append_drop]
  have found : Text.slice? (Text.byteLength line.earlier)
      (Text.byteLength (line.earlier ++ line.piece)) source = some line.piece :=
    Text.slice?_eq_some_iff.mpr ⟨line.earlier, line.later, line.whole, rfl, rfl⟩
  have text : withoutReturns line.piece = line.text := withoutReturns_append line.trimmed _
  simp only [inBytes?, line.upTo_eq, ahead, line.stopByte_eq, found, line.around_eq, text,
    Option.bind_eq_bind, Option.bind_some]

end SourceLine

namespace Excerpt

open SourceLine (Holding)

variable {source : String} {column : Nat}

/-- What is shown of a line: the characters that are no further than
`radius` from the column. -/
theorem around_eq (line : Holding source.toList column) :
    around source column =
      ⟨Text.window (line.caret - radius) (line.caret + radius) line.text,
        min line.caret radius⟩ := by
  have indent : line.caret - (line.caret - radius) = min line.caret radius := by omega
  rw [around, line.around_eq, Text.window_eq, ← indent]
  rfl

/-- The end of the window need not be computed right where the line is over
before the window begins. -/
theorem inBytes?_eq {word : Nat → Nat} (line : Holding source.toList column)
    (enough : word (line.caret + radius + 1) = line.caret + radius + 1 ∨
      line.text.length ≤ line.caret - radius) :
    inBytes? word source.toList column = some (around source column) := by
  have snippet : (line.text.drop (line.caret - radius)).take
      (min (word (line.caret + radius + 1)) line.text.length - (line.caret - radius)) =
      (line.text.take (line.caret + radius + 1)).drop (line.caret - radius) := by
    rw [List.drop_take]
    rcases enough with same | beyond
    · rw [same, List.take_eq_take_iff, List.length_drop]
      omega
    · rw [List.drop_of_length_le beyond, List.take_nil, List.take_nil]
  simp only [inBytes?, SourceLine.inBytes?_eq, around, line.around_eq, cut, Option.bind_eq_bind,
    Option.bind_some]
  exact congrArg (fun shown => some (Excerpt.mk shown _)) snippet

/-- A column for which the end of the window does not fit into a word is too
far behind any line in memory. -/
theorem fits_or_beyond (line : Holding source.toList column)
    (small : 2 * (Text.encode source).length < UInt64.size) :
    (line.caret + radius + 1) % UInt64.size = line.caret + radius + 1 ∨
      line.text.length ≤ line.caret - radius := by
  by_cases fits : line.caret + radius + 1 < UInt64.size
  · exact .inl (Nat.mod_eq_of_lt fits)
  · have bytes := Text.length_le_byteLength source.toList
    rw [← Text.length_encode] at bytes
    have shorter := congrArg List.length line.whole
    simp only [List.length_append] at shorter
    have word : UInt64.size = 18446744073709551616 := rfl
    rw [radius] at fits ⊢
    exact .inr (by omega)

end Excerpt

namespace Report

open SourceLine (Holding)

theorem notMem_gutter (number : Nat) : '\n' ∉ (gutter number).toList := by
  have padding : '\n' ∉ List.replicate (4 - (toString number).length) ' ' := fun member =>
    absurd (List.eq_of_mem_replicate member) (by decide)
  simp only [gutter, Text.padLeft, String.toList_append, Text.toList_spaces, List.mem_append,
    not_or]
  exact ⟨⟨by decide, padding, BracketError.notMem_toString number⟩, by decide⟩

/-- Neither row is broken by what is shown. -/
theorem splitOn_context {source : String} {place : Position} {snippet : List Char} {indent : Nat}
    (shown : Excerpt.around source place.column = ⟨snippet, indent⟩)
    (clear : '\n' ∉ snippet) :
    List.splitOn '\n' (context source place .plain).toList =
      [(gutter place.line).toList ++ snippet,
        List.replicate (9 + indent) ' ' ++ ['^'], []] := by
  have first : '\n' ∉ (gutter place.line).toList ++ snippet := by
    rw [List.mem_append, not_or]
    exact ⟨notMem_gutter place.line, clear⟩
  have second : '\n' ∉ List.replicate (9 + indent) ' ' ++ ['^'] := by
    rw [List.mem_append, not_or]
    exact ⟨fun member => absurd (List.eq_of_mem_replicate member) (by decide), by decide⟩
  have feed : "\n".toList = ['\n'] := rfl
  have caret : "^".toList = ['^'] := rfl
  have joined (one other : List Char) :
      one ++ ['\n'] ++ other ++ ['\n'] = one ++ '\n' :: (other ++ '\n' :: []) := by
    simp only [List.append_assoc, List.cons_append, List.nil_append]
  rw [context_plain, shown]
  simp only [sourceRow, caretRow, String.toList_append, String.toList_ofList, Text.toList_spaces,
    feed, caret]
  rw [joined, List.splitOn_append_cons_self_of_not_mem first,
    List.splitOn_append_cons_self_of_not_mem second]
  rfl

/-- A report can be asked for at any column.  It has two rows.  The first one
shows the characters of the line that holds the column, up to 32 on either
side of it.  The second one has nine blanks for the gutter, one for each
character of the line in front of the column, of which 32 count at most, and
the caret.  The search in bytes misses no slice on its way to this, whether
the end of the window is computed exactly or, for a source that fits into
memory, in a word of 64 bits. -/
theorem window_around_place (source : String) (place : Position) :
    Nonempty (Holding source.toList place.column) ∧
      ∀ line : Holding source.toList place.column,
        List.splitOn '\n' (context source place .plain).toList =
            [(gutter place.line).toList ++
                Text.window (line.caret - 32) (line.caret + 32) line.text,
              List.replicate (9 + min line.caret 32) ' ' ++ ['^'], []] ∧
          Excerpt.inBytes? id source.toList place.column =
            some ⟨Text.window (line.caret - 32) (line.caret + 32) line.text,
              min line.caret 32⟩ ∧
          (2 * (Text.encode source).length < UInt64.size →
            Excerpt.inBytes? (· % UInt64.size) source.toList place.column =
              some ⟨Text.window (line.caret - 32) (line.caret + 32) line.text,
                min line.caret 32⟩) := by
  refine ⟨SourceLine.nonempty_holding _ _, fun line => ?_⟩
  have excerpt := Excerpt.around_eq line
  rw [Excerpt.radius] at excerpt
  refine ⟨?_, ?_, fun small => ?_⟩
  · have clear : '\n' ∉ Text.window (line.caret - 32) (line.caret + 32) line.text := by
      rw [Text.window_eq]
      exact fun member => line.clear (List.mem_of_mem_take (List.mem_of_mem_drop member))
    exact splitOn_context excerpt clear
  · rw [Excerpt.inBytes?_eq line (.inl (id_eq _)), excerpt]
  · rw [Excerpt.inBytes?_eq line (Excerpt.fits_or_beyond line small), excerpt]

/-- The last line of two, which has a letter of more than one byte and ends
with a carriage return.  The largest column is too far behind it for any
character to be shown. -/
theorem window_at_last_column :
    2 * (Text.encode "é\nàb]\r").length < UInt64.size ∧
      ∃ line : Holding "é\nàb]\r".toList (UInt64.size - 1), line.text = ['à', 'b', ']'] ∧
        List.splitOn '\n' (context "é\nàb]\r" ⟨1, UInt64.size - 1⟩ .plain).toList =
          ["     1 | ".toList, List.replicate 41 ' ' ++ ['^'], []] ∧
        Excerpt.inBytes? (· % UInt64.size) "é\nàb]\r".toList (UInt64.size - 1) = some ⟨[], 32⟩ := by
  have small : 2 * (Text.encode "é\nàb]\r").length < UInt64.size := by
    rw [Text.length_encode]
    decide
  obtain ⟨line, text, caret⟩ : ∃ line : Holding "é\nàb]\r".toList (UInt64.size - 1),
      line.text = ['à', 'b', ']'] ∧ line.caret = UInt64.size - 3 :=
    ⟨⟨['é', '\n'], ['à', 'b', ']'], 1, [], rfl, by decide, by decide, .inr ⟨['é'], rfl⟩,
      .inl rfl, by decide, .inl rfl⟩, rfl, rfl⟩
  rcases (window_around_place "é\nàb]\r" ⟨1, UInt64.size - 1⟩).2 line with ⟨rows, -, slices⟩
  rw [text, caret] at rows slices
  exact ⟨small, line, text, rows.trans rfl, (slices small).trans rfl⟩

end Report
end RingTape
