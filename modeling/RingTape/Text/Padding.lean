namespace RingTape
namespace Text

/-!
# Padding

Columns of a table are aligned with spaces.  A text that is wider than its
column is written whole, so padding never loses anything and the following
columns move.
-/

/-- A row of spaces. -/
def spaces (count : Nat) : String :=
  String.ofList (List.replicate count ' ')

/-- A text at the left of a column. -/
def padRight (width : Nat) (text : String) : String :=
  text ++ spaces (width - text.length)

/-- A text at the right of a column. -/
def padLeft (width : Nat) (text : String) : String :=
  spaces (width - text.length) ++ text

@[simp]
theorem toList_spaces (count : Nat) : (spaces count).toList = List.replicate count ' ' := by
  simp [spaces]

@[simp]
theorem length_spaces (count : Nat) : (spaces count).length = count := by
  simp [spaces]

end Text
end RingTape
