import RingTape.Text.Blank

namespace RingTape

/-!
# Cell modes

A mode settles how a cell meets text: as the character with that code, or as
a decimal number.  The same choice governs what output writes and what input
accepts, so there is one type for both directions.
-/

/-- How cells are written and read. -/
inductive Mode where
  | character
  | numeric
  deriving DecidableEq, Repr, Inhabited

namespace Mode

/-- The name that settings files and reports use for a mode. -/
def name : Mode → String
  | character => "char"
  | numeric => "numeric"

/-- The mode with exactly this name; each mode has a second accepted name. -/
def named? : String → Option Mode
  | "char" | "character" => some character
  | "num" | "numeric" => some numeric
  | _ => none

/-- A mode name as it is compared: without surrounding blanks and in small
letters. -/
def normalName (text : String) : String :=
  String.ofList (Text.lowerAscii (Text.trim text.toList))

/-- The mode a text names, whatever its surrounding blanks and its case. -/
def read? (text : String) : Option Mode :=
  named? (normalName text)

/-- The report for a text that names no mode. -/
def unknownMessage (text : String) : String :=
  "unknown output mode '" ++ normalName text ++ "' (expected char or numeric)"

theorem named?_name (mode : Mode) : named? mode.name = some mode := by
  cases mode <;> rfl

end Mode
end RingTape
