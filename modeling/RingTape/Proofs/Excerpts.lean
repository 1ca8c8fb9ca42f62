import RingTape.Report
import RingTape.Text.Pieces

namespace RingTape

/-!
# Lines by number and lines by index

A report finds a line of the source from an index alone: it goes from the
character with this index to the nearest line feed on either side.  A reader
of the report finds a line by its number, among the pieces between the line
feeds.  The two agree: the line that holds an index has as many lines in
front of it as there are line feeds before the index
(`SourceLine.numbered?_count`).

The second half of the module follows a character of the line into the part
that is shown.  Neither the carriage returns that are dropped nor the window
moves it away from the caret.
-/

namespace SourceLine

/-- The line with a number, counted from zero, with all the earlier lines
and their line feeds in front of it. -/
def numbered? (source : List Char) (number : Nat) : Option SourceLine :=
  let lines := List.splitOn '\n' source
  lines[number]?.map fun line =>
    ⟨withoutReturns line, ((lines.take number).flatMap (· ++ ['\n'])).length⟩

section Numbers

variable {earlier line later : List Char}

/-- A line without line feeds is found by the number of line feeds in front
of it, if it begins and ends where lines do. -/
theorem numbered?_append (whole : '\n' ∉ line)
    (begins : earlier = [] ∨ ∃ lines, earlier = lines ++ ['\n'])
    (ends : later = [] ∨ ∃ lines, later = '\n' :: lines) :
    numbered? (earlier ++ (line ++ later)) (earlier.count '\n') =
      some ⟨withoutReturns line, earlier.length⟩ := by
  have first : ∃ others, List.splitOn '\n' (line ++ later) = line :: others := by
    rcases ends with rfl | ⟨lines, rfl⟩
    · exact ⟨[], by rw [List.append_nil, List.splitOn_eq_singleton whole]⟩
    · exact ⟨List.splitOn '\n' lines, by
        rw [List.splitOn_append_cons_self, List.splitOn_eq_singleton whole, List.singleton_append]⟩
  rcases first with ⟨others, cut⟩
  rcases begins with rfl | ⟨lines, rfl⟩
  · simp only [numbered?, List.nil_append, cut, List.count_nil, List.getElem?_cons_zero,
      Option.map_some, List.take_zero, List.flatMap_nil]
  · have number : (lines ++ ['\n']).count '\n' = (List.splitOn '\n' lines).length := by
      rw [Text.length_splitOn, List.count_append, List.count_singleton_self]
    have joined : lines ++ ['\n'] ++ (line ++ later) = lines ++ '\n' :: (line ++ later) := by
      rw [List.append_assoc, List.singleton_append]
    rw [numbered?, joined, List.splitOn_append_cons_self, cut, number]
    simp only [List.getElem?_append_right (Nat.le_refl _), Nat.sub_self,
      List.getElem?_cons_zero, Option.map_some, List.take_left', Text.flatMap_splitOn]

end Numbers

theorem dropWhile_continues (text : List Char) :
    text.dropWhile continues = [] ∨ ∃ rest, text.dropWhile continues = '\n' :: rest := by
  have stops := List.head?_dropWhile_not continues text
  cases left : text.dropWhile continues with
  | nil => exact .inl rfl
  | cons character rest =>
    simp only [left, List.head?_cons, continues, bne_eq_false_iff_eq] at stops
    exact .inr ⟨rest, by rw [stops]⟩

theorem notMem_takeWhile_continues (text : List Char) : '\n' ∉ text.takeWhile continues := by
  intro member
  have inside := List.all_eq_true.mp List.all_takeWhile '\n' member
  cases inside

/-- An index divides the line that holds it into two halves.  With what
stands before and behind this line, these are the parts of the source. -/
theorem exists_halves (source : List Char) (index : Nat) :
    ∃ earlier head tail later, source.take index = earlier ++ head ∧
      source.drop index = tail ++ later ∧ '\n' ∉ head ++ tail ∧
      (earlier = [] ∨ ∃ lines, earlier = lines ++ ['\n']) ∧
      (later = [] ∨ ∃ lines, later = '\n' :: lines) ∧
      around source index = ⟨withoutReturns (head ++ tail), earlier.length⟩ := by
  let before := source.take index
  let head := (before.reverse.takeWhile continues).reverse
  let earlier := (before.reverse.dropWhile continues).reverse
  let tail := (source.drop index).takeWhile continues
  let later := (source.drop index).dropWhile continues
  have front : before = earlier ++ head := by
    rw [← List.reverse_append, List.takeWhile_append_dropWhile, List.reverse_reverse]
  have clear : '\n' ∉ head ++ tail := by
    rw [List.mem_append, not_or, List.mem_reverse]
    exact ⟨notMem_takeWhile_continues before.reverse,
      notMem_takeWhile_continues (source.drop index)⟩
  have begins : earlier = [] ∨ ∃ lines, earlier = lines ++ ['\n'] := by
    rcases dropWhile_continues before.reverse with nothing | ⟨rest, fed⟩
    · exact .inl (List.reverse_eq_nil_iff.mpr nothing)
    · exact .inr ⟨rest.reverse, by rw [← List.reverse_cons, ← fed]⟩
  have start : before.length - head.length = earlier.length := by
    rw [front, List.length_append, Nat.add_sub_cancel]
  exact ⟨earlier, head, tail, later, front, List.takeWhile_append_dropWhile.symm, clear, begins,
    dropWhile_continues (source.drop index),
    congrArg (SourceLine.mk (withoutReturns (head ++ tail))) start⟩

/-- The line around an index is the line whose number is the count of the
line feeds before the index, also for an index beyond the text. -/
theorem numbered?_count (source : List Char) (index : Nat) :
    numbered? source ((source.take index).count '\n') = some (around source index) := by
  rcases exists_halves source index with
    ⟨earlier, head, tail, later, front, back, clear, begins, ends, same⟩
  have whole : source = earlier ++ (head ++ tail ++ later) := by
    rw [List.append_assoc head, ← back, ← List.append_assoc, ← front, List.take_append_drop]
  have headClear : '\n' ∉ head := fun member => clear (List.mem_append_left tail member)
  have number : (source.take index).count '\n' = earlier.count '\n' := by
    rw [front, List.count_append, List.count_eq_zero_of_not_mem headClear, Nat.add_zero]
  have found := numbered?_append clear begins ends
  rw [← whole] at found
  rw [number, found, same]

section Contents

variable {source text : List Char} {index position : Nat} {character : Char}

/-- Only carriage returns are dropped. -/
theorem getElem?_withoutReturns (found : text[position]? = some character)
    (kept : character ≠ '\r') : (withoutReturns text)[position]? = some character := by
  have whole : text =
      withoutReturns text ++ (text.reverse.takeWhile (· == '\r')).reverse := by
    rw [withoutReturns, ← List.reverse_append, List.takeWhile_append_dropWhile,
      List.reverse_reverse]
  rw [whole, List.getElem?_append] at found
  split at found
  · exact found
  · have member := List.mem_of_getElem? found
    rw [List.mem_reverse] at member
    have dropped := List.all_eq_true.mp List.all_takeWhile character member
    exact absurd (beq_iff_eq.mp dropped) kept

/-- The character with an index stands in the line around the index, behind
the characters that come before the line. -/
theorem getElem?_around (found : source[index]? = some character)
    (visible : character ≠ '\n' ∧ character ≠ '\r') :
    (around source index).start ≤ index ∧
      (around source index).text[index - (around source index).start]? = some character := by
  let before := source.take index
  let head := (before.reverse.takeWhile continues).reverse
  have inside : index < source.length := (List.getElem?_eq_some_iff.mp found).1
  have length : before.length = index := by
    rw [List.length_take, Nat.min_eq_left (Nat.le_of_lt inside)]
  have short : head.length ≤ index := by
    have shorter := (List.takeWhile_prefix continues (l := before.reverse)).length_le
    rw [List.length_reverse, length] at shorter
    rw [List.length_reverse]
    exact shorter
  have first : ∃ more, (source.drop index).takeWhile continues = character :: more := by
    have rest : (source.drop index)[0]? = some character := by
      rw [List.getElem?_drop, Nat.add_zero, found]
    cases opened : source.drop index with
    | nil =>
      rw [opened] at rest
      cases rest
    | cons next more =>
      rw [opened, List.getElem?_cons_zero] at rest
      cases rest
      refine ⟨more.takeWhile continues, List.takeWhile_cons_of_pos ?_⟩
      exact bne_iff_ne.mpr visible.1
  rcases first with ⟨more, opened⟩
  have start : (around source index).start = index - head.length := by
    change before.length - head.length = _
    rw [length]
  have offset : index - (around source index).start = head.length := by omega
  refine ⟨by omega, ?_⟩
  rw [offset]
  refine getElem?_withoutReturns ?_ visible.2
  rw [opened, List.getElem?_append_right (Nat.le_refl _), Nat.sub_self,
    List.getElem?_cons_zero]

end Contents
end SourceLine

namespace Excerpt

variable {text : List Char} {caret stop : Nat}

/-- What is shown begins at most `radius` characters before the caret. -/
theorem snippet_cut_prefix (text : List Char) (caret stop : Nat) :
    (cut text caret stop).snippet <+: text.drop (caret - radius) := by
  rw [cut, List.drop_take]
  exact List.take_prefix _ _

/-- The caret points at the same character in what is shown as in the line. -/
theorem getElem?_snippet_cut (inside : caret < stop) :
    (cut text caret stop).snippet[(cut text caret stop).indent]? = text[caret]? := by
  have same : caret - radius + (caret - (caret - radius)) = caret :=
    Nat.add_sub_cancel' (Nat.sub_le caret radius)
  simp only [cut, List.getElem?_drop, same]
  exact List.getElem?_take_of_lt inside

end Excerpt
end RingTape
