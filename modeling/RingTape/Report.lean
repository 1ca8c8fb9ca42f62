import RingTape.Palette
import RingTape.Program
import RingTape.Text.Padding

namespace RingTape

/-!
# Reports that point into a source text

A report shows the line of the source that holds a place, and a caret below
it.  The line is found from the place's column alone, by cutting the text
there and going to the nearest line feed on either side.  Carriage returns
at the end of the line are dropped.  Of a long line only a window around the
place is shown.

A column beyond the text belongs to the last line, and the caret then stands
to the right of everything.  The line number is printed as given and takes
no part in the search.
-/

/-- A line of a source text, and how many characters come before it. -/
structure SourceLine where
  text : List Char
  start : Nat
  deriving DecidableEq, Repr

/-- The part of a line that is shown, and the blanks before the caret. -/
structure Excerpt where
  snippet : List Char
  indent : Nat
  deriving DecidableEq, Repr

namespace SourceLine

/-- Whether a character does not end a line. -/
def continues (character : Char) : Bool := character != '\n'

/-- A line without the carriage returns at its end. -/
def withoutReturns (line : List Char) : List Char :=
  (line.reverse.dropWhile (· == '\r')).reverse

/-- The line that holds the character with this index. -/
def around (source : List Char) (index : Nat) : SourceLine :=
  let before := source.take index
  let head := (before.reverse.takeWhile continues).reverse
  let tail := (source.drop index).takeWhile continues
  ⟨withoutReturns (head ++ tail), before.length - head.length⟩

end SourceLine

namespace Excerpt

/-- How many characters are shown on either side of a place. -/
def radius : Nat := 32

/-- The part of a line from `radius` characters before `caret` up to `stop`,
which is excluded. -/
def cut (line : List Char) (caret stop : Nat) : Excerpt :=
  let start := caret - radius
  ⟨(line.take stop).drop start, caret - start⟩

/-- What is shown of the source for a place. -/
def around (source : String) (column : Nat) : Excerpt :=
  let line := SourceLine.around source.toList column
  let caret := column - line.start
  cut line.text caret (caret + radius + 1)

end Excerpt

namespace Report

/-- The two rows that show a place: the source line and the caret. -/
def context (source : String) (place : Position) (palette : Palette) : String :=
  let excerpt := Excerpt.around source place.column
  "  " ++ palette.location.paint (Text.padLeft 4 (toString place.line) ++ " |") ++ " " ++
    palette.source.paint (String.ofList excerpt.snippet) ++ "\n" ++
  "         " ++ palette.caret.paint (Text.spaces excerpt.indent ++ "^") ++ "\n"

/-- A message, with the name of the program that it comes from. -/
def prefixed (program : Option String) (message : String) : String :=
  match program with
  | none => message
  | some program => program ++ ": " ++ message

/-- What is written for one place of a bracket error. -/
def block (program : Option String) (source : String) (error : BracketError)
    (palette : Palette) (place : Position) : String :=
  palette.error.paint (prefixed program (error.messageAt place)) ++ "\n" ++
    context source place palette

/-- What is written for a bracket error: a block for each place. -/
def brackets (program : Option String) (source : String) (error : BracketError)
    (palette : Palette) : String :=
  String.join (error.places.map (block program source error palette))

end Report
end RingTape
