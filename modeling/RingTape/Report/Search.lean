import RingTape.Report
import RingTape.Text.Pieces
import RingTape.Text.Slices

namespace RingTape

/-!
# Searching a source in memory

`SourceLine.around` cuts a source by characters and never misses.  A source
in memory is a sequence of bytes, and it is searched by a walk.  The walk
takes one character after the other, up to the column, and remembers where
the last line began that it came through.  The end of the line is found by
looking for a line feed from there on, and the line is then sliced out by
two offsets in bytes.  Each slice is given up here if it does not exist.

What the search should find is told without any search.  A column is on one
of the pieces between the line feeds of the source, and the line that holds
it is known by what stands around that piece (`SourceLine.Holding`).
-/

/-- How far a walk through a source has come, in characters and in bytes,
and where the line began that it is in. -/
structure Walk where
  column : Nat := 0
  byte : Nat := 0
  lineByte : Nat := 0
  lineStart : Nat := 0
  deriving DecidableEq, Repr

namespace Walk

/-- Go past a character. -/
def next (walk : Walk) (character : Char) : Walk where
  column := walk.column + 1
  byte := walk.byte + character.utf8Size
  lineByte := if character = '\n' then walk.byte + 1 else walk.lineByte
  lineStart := if character = '\n' then walk.column + 1 else walk.lineStart

/-- Go on to a column, or to the end of the source. -/
def upTo (column : Nat) : List Char → Walk → Walk
  | [], walk => walk
  | character :: rest, walk =>
    if walk.column = column then walk else upTo column rest (walk.next character)

end Walk

namespace SourceLine

/-- The byte at which a line ends, if `ahead` is what the source holds from
a byte of this line on. -/
def stopByte (source : List Char) (byte : Nat) (ahead : List Char) : Nat :=
  match Text.cutOnce? '\n' ahead with
  | some (rest, _) => byte + Text.byteLength rest
  | none => Text.byteLength source

/-- The line that holds a column, sliced out of the bytes of the source. -/
def inBytes? (source : List Char) (column : Nat) : Option SourceLine := do
  let walk := Walk.upTo column source {}
  let ahead ← Text.slice? walk.byte (Text.byteLength source) source
  let line ← Text.slice? walk.lineByte (stopByte source walk.byte ahead) source
  some ⟨withoutReturns line, walk.lineStart⟩

/-- The line of a source that holds a column, with what stands around it.  A
line feed belongs to the line that it ends, and the last line goes on beyond
the source.  Carriage returns at the end of a line are not part of its text. -/
structure Holding (source : List Char) (column : Nat) where
  earlier : List Char
  text : List Char
  returns : Nat
  later : List Char
  whole : source = earlier ++ (text ++ List.replicate returns '\r') ++ later
  clear : '\n' ∉ text
  trimmed : text.getLast? ≠ some '\r'
  begins : earlier = [] ∨ ∃ lines, earlier = lines ++ ['\n']
  ends : later = [] ∨ ∃ lines, later = '\n' :: lines
  behind : earlier.length ≤ column
  reaches : later = [] ∨ column ≤ earlier.length + (text.length + returns)

/-- Where the column is on its line. -/
def Holding.caret {source : List Char} {column : Nat} (line : Holding source column) : Nat :=
  column - line.earlier.length

end SourceLine

/-- What is shown of a source, found in its bytes.  The end of the window is
a sum that need not fit into a word; `word` says what becomes of it. -/
def Excerpt.inBytes? (word : Nat → Nat) (source : List Char) (column : Nat) :
    Option Excerpt := do
  let line ← SourceLine.inBytes? source column
  let caret := column - line.start
  let start := caret - radius
  let stop := min (word (caret + radius + 1)) line.text.length
  some ⟨(line.text.drop start).take (stop - start), caret - start⟩

end RingTape
