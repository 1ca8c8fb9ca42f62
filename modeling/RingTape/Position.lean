namespace RingTape

/-!
# Places in a source text

A place is named by two counts that are both taken from the beginning of the
whole text: the line feeds before it, and the characters before it.  The
second count is not reset at line breaks, so it alone determines the place
and the first is a convenience for the reader of a report.
-/

/-- A place in a source text. -/
structure Position where
  line : Nat
  column : Nat
  deriving DecidableEq, Repr, Inhabited

namespace Position

/-- The place of the first character. -/
def start : Position := ⟨0, 0⟩

/-- The place after a character that stands at this place. -/
def next (place : Position) (character : Char) : Position :=
  ⟨if character = '\n' then place.line + 1 else place.line, place.column + 1⟩

/-- A place as reports name it. -/
def describe (place : Position) : String :=
  "line " ++ toString place.line ++ ", column " ++ toString place.column

end Position
end RingTape
