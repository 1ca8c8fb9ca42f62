import Mathlib.Data.Set.Function
import RingTape.Program.Embedding
import RingTape.Program.Reader
import RingTape.Proofs.Nesting
import RingTape.Proofs.UnmatchedBrackets

namespace RingTape

/-!
# The end of a loop is the matching bracket

A loop is left by a search that runs forward and counts.  What it finds can
be said without counting along: it is the closing bracket behind a balanced
stretch (`Program.matchingEnd?_eq_some_iff`), in any program whatsoever.  In a
program that was read such a bracket exists for every loop, no two loops share
one, none is left over, and two loops are nested or apart.

The reader of programs pairs the same brackets, and does so with a stack and
in another pass.  Its stack is known from the text in front of it
(`Reader.Reads`): the open brackets are the ones that `Program.Pending` leaves
between matching stretches.  So the entry of a bracket comes to the top again
exactly behind a stretch that matches, and the bracket that pops it is the one
that the search finds (`Program.pops_of_matchingEnd?`).
-/

namespace Program

open Instruction (ofChar?)
open Position (following)

variable {program : Program} {depth position start close : Nat} {instruction : Instruction}

/-! ## The search without a search -/

theorem toList_extract_cons (here : program[position]? = some instruction)
    (before : position < close) :
    (program.extract position close).toList =
      instruction :: (program.extract (position + 1) close).toList := by
  rcases List.getElem?_eq_some_iff.mp (Array.getElem?_toList.trans here) with ⟨inside, found⟩
  have left : close - position = close - (position + 1) + 1 := by omega
  rw [Array.toList_extract, Array.toList_extract, List.extract_eq_take_drop,
    List.extract_eq_take_drop, List.drop_eq_getElem_cons inside, found, left, List.take_succ_cons]

/-- A search ends at the first closing bracket behind a stretch that closes
all the loops which were open. -/
theorem closingFrom_eq_some_iff :
    program.closingFrom depth position = some close ↔
      position ≤ close ∧ program[close]? = some .loopEnd ∧
        depthAfter? depth (program.extract position close).toList = some 0 := by
  -- An instruction that does not end the search moves over from the stretch to the depth.
  have further {instruction : Instruction} (depth position : Nat)
      (here : program[position]? = some instruction)
      (apart : position = close → instruction = .loopEnd →
        depthAfter? depth [] ≠ some 0) :
      (position ≤ close ∧ program[close]? = some .loopEnd ∧
          depthAfter? depth (program.extract position close).toList = some 0) ↔
        (position + 1 ≤ close ∧ program[close]? = some .loopEnd ∧
          depthAfter? depth (instruction :: (program.extract (position + 1) close).toList) =
            some 0) := by
    constructor
    · rintro ⟨reached, ending, level⟩
      rcases Nat.lt_or_eq_of_le reached with before | same
      · rw [toList_extract_cons here before] at level
        exact ⟨before, ending, level⟩
      · subst same
        cases here.symm.trans ending
        rw [Array.extract_empty_of_stop_le_start (Nat.le_refl _)] at level
        exact absurd level (apart rfl rfl)
    · rintro ⟨before, ending, level⟩
      rw [← toList_extract_cons here before] at level
      exact ⟨Nat.le_of_succ_le before, ending, level⟩
  fun_induction closingFrom program depth position with
  | case1 depth position inside bracket ih =>
    have here := Array.getElem?_eq_some_iff.mpr ⟨inside, bracket⟩
    have apart (_ : position = close) (other : Instruction.loopStart = .loopEnd) :
        depthAfter? depth [] ≠ some 0 := by cases other
    rw [further depth position here apart, depthAfter?]
    exact ih
  | case2 position inside bracket =>
    have here := Array.getElem?_eq_some_iff.mpr ⟨inside, bracket⟩
    constructor
    · intro found
      cases found
      rw [Array.extract_empty_of_stop_le_start (Nat.le_refl _)]
      exact ⟨Nat.le_refl _, here, rfl⟩
    · rintro ⟨reached, ending, level⟩
      rcases Nat.lt_or_eq_of_le reached with before | same
      · rw [toList_extract_cons here before, depthAfter?] at level
        cases level
      · rw [same]
  | case3 position inside bracket depth ih =>
    have here := Array.getElem?_eq_some_iff.mpr ⟨inside, bracket⟩
    have apart (_ : position = close) (_ : Instruction.loopEnd = .loopEnd) :
        depthAfter? (depth + 1) [] ≠ some 0 := by
      intro impossible
      cases impossible
    rw [further (depth + 1) position here apart, depthAfter?]
    exact ih
  | case4 depth position inside action bracket ih =>
    have here := Array.getElem?_eq_some_iff.mpr ⟨inside, bracket⟩
    have apart (_ : position = close) (other : Instruction.command action = .loopEnd) :
        depthAfter? depth [] ≠ some 0 := by cases other
    rw [further depth position here apart, depthAfter?]
    exact ih
  | case5 depth position outside =>
    constructor
    · intro impossible
      cases impossible
    · rintro ⟨reached, ending, -⟩
      have inside := (Array.getElem?_eq_some_iff.mp ending).1
      exact absurd (Nat.lt_of_le_of_lt reached inside) outside

/-- The end of a loop is the closing bracket with a balanced stretch in
front of it. -/
theorem matchingEnd?_eq_some_iff :
    program.matchingEnd? start = some close ↔
      start < close ∧ program[close]? = some .loopEnd ∧
        Balanced (program.extract (start + 1) close).toList := by
  rw [matchingEnd?, closingFrom_eq_some_iff, balanced_iff_depthAfter?, Nat.succ_le_iff]

/-! ## All loops together -/

/-- Two loops are apart, or one is inside the other. -/
theorem nested_or_apart {first second firstEnd secondEnd : Nat}
    (firstOpening : program[first]? = some .loopStart)
    (secondOpening : program[second]? = some .loopStart)
    (firstFound : program.matchingEnd? first = some firstEnd)
    (secondFound : program.matchingEnd? second = some secondEnd) (earlier : first < second) :
    firstEnd < second ∨ secondEnd < firstEnd := by
  rcases Nat.lt_or_ge firstEnd second with apart | reaches
  · exact .inl apart
  · right
    -- The first loop is still open at the second one, so its search runs past that loop.
    have around := mem_openAfter_of_le earlier firstOpening firstFound reaches
    rcases List.append_of_mem around with ⟨inner, outer, stack⟩
    have search := (matchingEnd?_of_openAfter stack).2.2
    rw [firstFound, closingFrom_of_matchingEnd? secondOpening secondFound] at search
    exact Nat.lt_of_succ_le (lt_of_closingFrom search.symm).1

/-- The brackets of a balanced program are paired. -/
theorem bijOn_matchingEnd? (balanced : Balanced program.toList) :
    Set.BijOn program.matchingEnd? {start | program[start]? = some .loopStart}
      (some '' {close | program[close]? = some .loopEnd}) := by
  refine ⟨?_, ?_, ?_⟩
  · intro start opening
    rcases exists_matchingEnd? balanced opening with ⟨close, found, -⟩
    exact ⟨close, (matchingEnd?_eq_some_iff.mp found).2.1, found.symm⟩
  · intro first firstOpening second secondOpening same
    rcases exists_matchingEnd? balanced firstOpening with ⟨close, found, -⟩
    exact eq_of_matchingEnd? firstOpening secondOpening found (same.symm.trans found)
  · rintro _ ⟨close, ending, rfl⟩
    rcases exists_openAfter_of_loopEnd balanced ending with ⟨start, opening, found, -⟩
    exact ⟨start, opening, found⟩

/-! ## The parts of a program around a loop -/

theorem exists_around (opening : program[start]? = some .loopStart)
    (ending : program[close]? = some .loopEnd) (before : start < close) :
    ∃ earlier later, earlier.length = start ∧
      program.toList = earlier ++
        .loopStart :: ((program.extract (start + 1) close).toList ++ .loopEnd :: later) := by
  rcases List.getElem?_eq_some_iff.mp (Array.getElem?_toList.trans opening) with ⟨inside, first⟩
  rcases List.getElem?_eq_some_iff.mp (Array.getElem?_toList.trans ending) with ⟨last, second⟩
  have parts : start + 1 + (close - (start + 1)) = close := by omega
  refine ⟨program.toList.take start, program.toList.drop (close + 1),
    List.length_take_of_le (Nat.le_of_lt inside), ?_⟩
  have rest : program.toList.drop (start + 1) = (program.extract (start + 1) close).toList ++
      .loopEnd :: program.toList.drop (close + 1) := by
    have behind : program.toList.drop close =
        (program.toList.drop (start + 1)).drop (close - (start + 1)) := by
      rw [List.drop_drop, parts]
    rw [Array.toList_extract, List.extract_eq_take_drop, ← second,
      ← List.drop_eq_getElem_cons last, behind, List.take_append_drop]
  rw [← rest, ← first, ← List.drop_eq_getElem_cons inside, List.take_append_drop]

theorem around_of_toList_eq {before inner after : List Instruction} {opening ending : Instruction}
    (whole : program.toList = before ++ opening :: (inner ++ ending :: after)) :
    program[before.length]? = some opening ∧
      program[before.length + (inner.length + 1)]? = some ending ∧
      (program.extract (before.length + 1) (before.length + (inner.length + 1))).toList = inner := by
  have here (index : Nat) :
      program[index]? = (before ++ opening :: (inner ++ ending :: after))[index]? := by
    rw [← whole, Array.getElem?_toList]
  refine ⟨?_, ?_, ?_⟩
  · rw [here, List.getElem?_append_right (Nat.le_refl _), Nat.sub_self, List.getElem?_cons_zero]
  · rw [here, List.getElem?_append_right (Nat.le_add_right _ _), Nat.add_sub_cancel_left,
      List.getElem?_cons_succ, List.getElem?_append_right (Nat.le_refl _), Nat.sub_self,
      List.getElem?_cons_zero]
  · have length : before.length + (inner.length + 1) - (before.length + 1) = inner.length := by
      omega
    rw [Array.toList_extract, List.extract_eq_take_drop, whole, length, ← List.drop_drop,
      List.drop_left, List.drop_one, List.tail_cons, List.take_left]

/-- Where an instruction stands in a text. -/
theorem exists_split_of_filterMap {text : List Char} {first second : List Instruction}
    (read : text.filterMap ofChar? = first ++ instruction :: second) :
    ∃ before after, text = before ++ instruction.toChar :: after ∧
      before.filterMap ofChar? = first ∧ after.filterMap ofChar? = second := by
  rcases List.filterMap_eq_append_iff.mp read with ⟨front, back, rfl, earlier, later⟩
  rcases List.filterMap_eq_cons_iff.mp later with ⟨comment, character, after, rfl, silent, here, rest⟩
  refine ⟨front ++ comment, after, ?_, ?_, rest⟩
  · rw [Instruction.toChar_of_ofChar? here, List.append_assoc]
  · rw [List.filterMap_append, earlier, List.filterMap_eq_nil_iff.mpr silent, List.append_nil]

end Program

namespace Reader

open Instruction (ofChar?)
open Position (following)
open Program (BracketsMatch Pending)

variable {reader later : Reader} {text : List Char} {character : Char}

/-! ## The stack of the reader -/

/-- What a reader knows of the text in front of it. -/
structure Reads (text : List Char) (reader : Reader) : Prop where
  here : reader.here = following text
  read : reader.read.toList = text.filterMap ofChar?
  opened : Pending text reader.opened

/-- Anything but a bracket matches by itself. -/
theorem bracketsMatch_singleton (starts : ofChar? character ≠ some .loopStart)
    (ends : ofChar? character ≠ some .loopEnd) : BracketsMatch [character] := by
  apply Program.bracketsMatch_iff_balanced.mpr
  cases found : ofChar? character with
  | none =>
    rw [List.filterMap_cons_none found]
    decide
  | some instruction =>
    rw [List.filterMap_cons_some found]
    cases instruction with
    | command action => cases action <;> decide
    | loopStart => exact absurd found starts
    | loopEnd => exact absurd found ends

/-- What one character preserves. -/
theorem Reads.step (reads : Reads text reader) (stepped : reader.next character = .ok later) :
    Reads (text ++ [character]) later := by
  rcases reader with ⟨here, opened, read⟩
  rcases reads with ⟨rfl, content, pending⟩
  have place := Position.next_following text character
  cases found : ofChar? character with
  | none =>
    have matching := @bracketsMatch_singleton character (by simp [found]) (by simp [found])
    simp only [Reader.next, found] at stepped
    cases stepped
    refine ⟨place, ?_, pending.append matching⟩
    rw [List.filterMap_append, List.filterMap_cons_none found, List.filterMap_nil, List.append_nil]
    exact content
  | some instruction =>
    have same := Instruction.toChar_of_ofChar? found
    have written : (read.push instruction).toList = (text ++ [character]).filterMap ofChar? := by
      rw [Array.toList_push, content, List.filterMap_append, List.filterMap_cons_some found,
        List.filterMap_nil]
    cases instruction with
    | command action =>
      have matching := @bracketsMatch_singleton character (by simp [found]) (by simp [found])
      simp only [Reader.next, found] at stepped
      cases stepped
      exact ⟨place, written, pending.append matching⟩
    | loopStart =>
      simp only [Reader.next, found] at stepped
      cases stepped
      subst same
      exact ⟨place, written, pending.push⟩
    | loopEnd =>
      simp only [Reader.next, found] at stepped
      cases opened with
      | nil => cases stepped
      | cons top outer =>
        cases stepped
        subst same
        exact ⟨place, written, pending.pop⟩

/-- What a text preserves. -/
theorem reads_of_pass (passed : Reader.pass {} text = .ok reader) : Reads text reader := by
  have start : Reads [] {} := ⟨rfl, rfl, .none Program.bracketsMatch_nil⟩
  have all := pass_preserves (motive := Reads) (fun _ _ _ _ reads stepped => reads.step stepped)
    start passed
  rwa [List.nil_append] at all

theorem Reads.size_read (reads : Reads text reader) :
    reader.read.size = (text.filterMap ofChar?).length := by
  rw [← reads.read, Array.length_toList]

end Reader

namespace Program

open Instruction (ofChar?)
open Position (following)
open Reader (Pops Reads reads_of_pass)

variable {text inner before : List Char} {opened others : List Position} {program : Program}
  {start close : Nat}

/-- The text in front of the reader determines its stack. -/
theorem Pending.unique (one : Pending text opened) (other : Pending text others) :
    others = opened := by
  have distinct {places : List Position} (pending : Pending text places) : places.Nodup :=
    pending.pairwise.imp fun less same => absurd (same ▸ less) (Nat.lt_irrefl _)
  refine List.Perm.eq_of_pairwise ?_ other.pairwise one.pairwise ?_
  · intro first second _ _ less greater
    exact absurd less (Nat.lt_asymm greater)
  · apply (List.perm_ext_iff_of_nodup (distinct other) (distinct one)).mpr
    intro place
    rw [other.mem_iff, one.mem_iff]

/-- The entry of a bracket is on top again exactly if a matching stretch
follows the bracket. -/
theorem Pending.reopened_iff (pending : Pending before opened) :
    Pending (before ++ '[' :: inner) (following before :: opened) ↔ BracketsMatch inner := by
  constructor
  · intro reopened
    have level := reopened.count_eq
    have lower := pending.count_eq
    rcases reopened.mem_iff.mp List.mem_cons_self with ⟨first, after, whole, same, never⟩
    have lengths : before.length = first.length := congrArg Position.column same
    have rest := (List.append_inj whole lengths).2
    cases rest
    refine bracketsMatch_iff.mpr ⟨forall_ne_one_more_iff.mp never, ?_⟩
    simp only [List.count_append, List.count_cons_self, count_close_cons_open,
      List.length_cons] at level
    omega
  · exact .one pending

/-- A pair of brackets that the reader makes is a loop and its end. -/
theorem matchingEnd?_of_pops {source : String} (accepted : parse source = .ok program)
    (pops : Pops source.toList start close) :
    program[start]? = some .loopStart ∧ program.matchingEnd? start = some close := by
  rcases pops with
    ⟨before, inner, after, opening, closing, whole, ⟨opened, rfl⟩, ⟨closed, rfl⟩, top⟩
  have first := reads_of_pass opened
  have second := reads_of_pass closed
  have matching : BracketsMatch inner := by
    have reopened := second.opened
    rw [top, first.here] at reopened
    exact first.opened.reopened_iff.mp reopened
  have starts : ofChar? '[' = some .loopStart := rfl
  have ends : ofChar? ']' = some .loopEnd := rfl
  have content := (parse_eq_ok_iff.mp accepted).2
  rw [whole, List.filterMap_append, List.filterMap_cons_some starts, List.filterMap_append,
    List.filterMap_cons_some ends] at content
  rcases around_of_toList_eq content with ⟨here, ending, stretch⟩
  have length := second.size_read
  rw [List.filterMap_append, List.filterMap_cons_some starts, List.length_append,
    List.length_cons] at length
  rw [first.size_read, length]
  refine ⟨here, matchingEnd?_eq_some_iff.mpr
    ⟨Nat.lt_add_of_pos_right (Nat.succ_pos _), ending, ?_⟩⟩
  rw [stretch]
  exact bracketsMatch_iff_balanced.mp matching

/-- The reader makes a pair of every loop and its end. -/
theorem pops_of_matchingEnd? {source : String} (accepted : parse source = .ok program)
    (here : program[start]? = some .loopStart)
    (found : program.matchingEnd? start = some close) : Pops source.toList start close := by
  rcases matchingEnd?_eq_some_iff.mp found with ⟨apart, ending, balanced⟩
  rcases exists_around here ending apart with ⟨earlier, later, rfl, parts⟩
  rcases exists_split_of_filterMap ((parse_eq_ok_iff.mp accepted).2.symm.trans parts) with
    ⟨before, rest, whole, front, back⟩
  rcases exists_split_of_filterMap back with ⟨inner, after, rfl, body, _⟩
  have joined : source.toList = (before ++ '[' :: inner) ++ ']' :: after := by
    rw [whole, List.append_assoc, List.cons_append]
    rfl
  have matching : BracketsMatch inner := by
    rw [bracketsMatch_iff_balanced, body]
    exact balanced
  -- The whole text is read, so it is read up to either bracket.
  rcases exists_pass_of_parse accepted with ⟨final, passed, -, -⟩
  have alsoPassed := passed
  rw [whole] at passed
  rw [joined] at alsoPassed
  rcases Reader.pass_append_eq_ok_iff.mp passed with ⟨opening, opened, -⟩
  rcases Reader.pass_append_eq_ok_iff.mp alsoPassed with ⟨closing, closed, -⟩
  have first := reads_of_pass opened
  have second := reads_of_pass closed
  refine ⟨before, inner, after, opening, closing, whole, ⟨opened, ?_⟩, ⟨closed, ?_⟩, ?_⟩
  · rw [first.size_read, front]
  · have starts : ofChar? '[' = some .loopStart := rfl
    have inside := (Array.getElem?_eq_some_iff.mp ending).1
    have stretch : (program.extract (earlier.length + 1) close).toList.length =
        close - (earlier.length + 1) := by
      rw [Array.length_toList, Array.size_extract, Nat.min_eq_left (Nat.le_of_lt inside)]
    rw [second.size_read, List.filterMap_append, front, List.filterMap_cons_some starts, body,
      List.length_append, List.length_cons, stretch]
    omega
  · rw [first.here]
    exact (first.opened.reopened_iff.mpr matching).unique second.opened

/-- The search for the end of a loop computes the matching of the brackets.
In a program that was read it ends inside the program for every loop, at the
only closing bracket behind a balanced stretch, and at the only one that pops
the loop's entry from the stack of the reader.  It pairs the opening brackets
with the closing ones, and two of its pairs are nested or apart. -/
theorem matchingEnd?_of_parse {source : String} (accepted : parse source = .ok program) :
    (∀ start, program[start]? = some .loopStart →
      ∃ close, program.matchingEnd? start = some close ∧ close < program.size ∧
        (∀ other, (start < other ∧ program[other]? = some .loopEnd ∧
          Balanced (program.extract (start + 1) other).toList) ↔ other = close) ∧
        ∀ other, Pops source.toList start other ↔ other = close) ∧
    Set.BijOn program.matchingEnd? {start | program[start]? = some .loopStart}
      (some '' {close | program[close]? = some .loopEnd}) ∧
    ∀ first second firstEnd secondEnd,
      program[first]? = some .loopStart → program[second]? = some .loopStart →
      program.matchingEnd? first = some firstEnd → program.matchingEnd? second = some secondEnd →
      first < second → firstEnd < second ∨ secondEnd < firstEnd := by
  have balanced := balanced_of_parse accepted
  refine ⟨fun start opening => ?_, bijOn_matchingEnd? balanced, fun _ _ _ _ => nested_or_apart⟩
  rcases exists_matchingEnd? balanced opening with ⟨close, found, inside⟩
  have same (other : Nat) : program.matchingEnd? start = some other ↔ other = close := by
    rw [found, Option.some.injEq]
    exact eq_comm
  refine ⟨close, found, inside, fun other => ?_, fun other => ?_⟩
  · rw [← matchingEnd?_eq_some_iff, same]
  · rw [← same]
    exact ⟨fun pops => (matchingEnd?_of_pops accepted pops).2, pops_of_matchingEnd? accepted opening⟩

/-- Two loops, one behind the other inside a third, with commentary between
the brackets. -/
theorem matchingEnd?_of_two_in_one :
    ∃ program, parse "é[[-]\n+[x]]+" = .ok program ∧
      program[0]? = some .loopStart ∧ program.matchingEnd? 0 = some 7 ∧
      (∀ other, Pops "é[[-]\n+[x]]+".toList 0 other ↔ other = 7) ∧
      program.matchingEnd? 1 = some 3 ∧ program.matchingEnd? 5 = some 6 ∧
      (3 < 5 ∨ 6 < 3) := by
  have accepted : parse "é[[-]\n+[x]]+" = .ok #[.loopStart, .loopStart, .command .decrement,
      .loopEnd, .command .increment, .loopStart, .loopEnd, .loopEnd, .command .increment] := rfl
  have law := matchingEnd?_of_parse accepted
  rcases law.1 0 rfl with ⟨outerEnd, outer, -, outerOnly, pops⟩
  rcases law.1 1 rfl with ⟨firstEnd, first, -, firstOnly, -⟩
  rcases law.1 5 rfl with ⟨secondEnd, second, -, secondOnly, -⟩
  cases (outerOnly 7).mp ⟨by decide, rfl, by decide⟩
  cases (firstOnly 3).mp ⟨by decide, rfl, by decide⟩
  cases (secondOnly 6).mp ⟨by decide, rfl, by decide⟩
  exact ⟨_, accepted, rfl, outer, pops, first, second,
    law.2.2 1 5 3 6 rfl rfl first second (by decide)⟩

end Program
end RingTape
