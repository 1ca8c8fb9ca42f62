import RingTape.Program

namespace RingTape

/-!
# The places that bracket errors name

A place consists of two counts, and the reader keeps both of them up as it
goes.  `Position.following` takes them from the text instead.  That the
reader's counts are these, and that it records a place only where a bracket
stands, is one invariant of `Program.readFrom`: the open places are places of
opening brackets in the text that was read.
-/

namespace Position

/-- The place behind a stretch of text. -/
def following (before : List Char) : Position :=
  ⟨before.count '\n', before.length⟩

/-- Whether a character stands at a place of a text. -/
def Holds (text : List Char) (place : Position) (character : Char) : Prop :=
  ∃ before after, text = before ++ character :: after ∧ place = following before

theorem next_following (before : List Char) (character : Char) :
    (following before).next character = following (before ++ [character]) := by
  by_cases feed : character = '\n'
  · simp [following, next, feed]
  · simp [following, next, feed]

namespace Holds

variable {text : List Char} {place : Position} {character : Char}

/-- A column is an index into the whole text. -/
theorem getElem?_column (holds : Holds text place character) :
    text[place.column]? = some character := by
  rcases holds with ⟨before, after, rfl, rfl⟩
  rw [following, List.getElem?_append_right (Nat.le_refl _), Nat.sub_self,
    List.getElem?_cons_zero]

/-- A line number counts the line feeds in front of the column. -/
theorem line_eq (holds : Holds text place character) :
    place.line = (text.take place.column).count '\n' := by
  rcases holds with ⟨before, after, rfl, rfl⟩
  simp only [following, List.take_left]

end Holds
end Position

namespace BracketError

/-- The bracket that an error is about. -/
def bracket : BracketError → Char
  | unmatchedClose _ => ']'
  | unmatchedOpen _ => '['

end BracketError

namespace Program

open Position (following Holds)

/-- Wherever the reader stops, it names at least one place, and the bracket
stands at each of them. -/
theorem holds_of_readFrom {before rest : List Char} {opened : List Position} {read : Program}
    {error : BracketError} (refused : readFrom (following before) opened read rest = .error error)
    (opening : ∀ place ∈ opened, Holds (before ++ rest) place '[') :
    error.places ≠ [] ∧ ∀ place ∈ error.places, Holds (before ++ rest) place error.bracket := by
  -- What has been read moves over to `before`, so the whole text stays the same.
  induction rest generalizing before opened read with
  | nil =>
    cases opened with
    | nil => cases refused
    | cons place outer =>
      cases refused
      refine ⟨List.reverse_ne_nil_iff.mpr (List.cons_ne_nil place outer), ?_⟩
      intro named member
      exact opening named (List.mem_reverse.mp member)
  | cons character rest ih =>
    have joined : before ++ character :: rest = before ++ [character] ++ rest := by
      rw [List.append_assoc, List.singleton_append]
    have here (bracket : Char) (same : character = bracket) :
        Holds (before ++ [character] ++ rest) (following before) bracket :=
      ⟨before, rest, by rw [← joined, same], rfl⟩
    rw [joined] at opening ⊢
    simp only [readFrom, Position.next_following] at refused
    cases found : Instruction.ofChar? character with
    | none =>
      rw [found] at refused
      exact ih refused opening
    | some instruction =>
      have same := Instruction.toChar_of_ofChar? found
      rw [found] at refused
      cases instruction with
      | command action => exact ih refused opening
      | loopStart =>
        refine ih refused fun place member => ?_
        rcases List.mem_cons.mp member with rfl | earlier
        · exact here '[' same.symm
        · exact opening place earlier
      | loopEnd =>
        cases opened with
        | nil =>
          cases refused
          refine ⟨List.cons_ne_nil _ _, fun place member => ?_⟩
          rw [List.mem_singleton.mp member]
          exact here ']' same.symm
        | cons place outer =>
          exact ih refused fun named member => opening named (List.mem_cons_of_mem place member)

/-- A refused text has the offending bracket at every place that is named. -/
theorem holds_of_parse {source : String} {error : BracketError}
    (refused : parse source = .error error) :
    error.places ≠ [] ∧ ∀ place ∈ error.places, Holds source.toList place error.bracket :=
  @holds_of_readFrom [] _ _ _ _ refused fun _ member => absurd member List.not_mem_nil

end Program
end RingTape
