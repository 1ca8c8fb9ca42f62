import RingTape.Program
import RingTape.Tape

namespace RingTape

/-!
# Strokes

Four of the commands need nothing but the tape: the two moves, and the two
that change the current cell by one.  They are called strokes here.  What a
row of strokes comes to can be said without carrying it out: the pointer
goes as far as the moves to the right outnumber those to the left, around
the ring, and a cell gains what the strokes add that act while the pointer
is there.  On a short ring different displacements lead to one cell, and
all of them count for it.

The definitions at the end are the two programs that consist of a row of
strokes and of a loop around one, and the moves of a tape as a machine
computes them, in words of 64 bits.
-/

/-- A command that acts on the tape alone. -/
inductive Stroke where
  | left
  | right
  | up
  | down
  deriving DecidableEq, Repr

namespace Stroke

/-- The command that a stroke is. -/
def command : Stroke → Command
  | left => .moveLeft
  | right => .moveRight
  | up => .increment
  | down => .decrement

/-- The stroke that takes a stroke back. -/
def opposite : Stroke → Stroke
  | left => right
  | right => left
  | up => down
  | down => up

/-- How many cells further to the right the pointer is behind the strokes,
if it does not come around. -/
def displacement (strokes : List Stroke) : Int :=
  strokes.count right - strokes.count left

/-- How many strokes of a kind act on a cell of a ring, if the pointer begins
at `start`.  Each of them acts where the strokes before it have brought the
pointer. -/
def hits (kind : Stroke) (length start index : Nat) (strokes : List Stroke) : Nat :=
  (List.range strokes.length).countP fun count =>
    strokes[count]? = some kind ∧
      (start + displacement (strokes.take count)) % length = index

/-- What the strokes add to a cell of a ring, if the pointer begins at
`start`. -/
def gain (length start index : Nat) (strokes : List Stroke) : Int :=
  hits up length start index strokes - hits down length start index strokes

/-- The strokes that take these back: the opposite ones in reversed order. -/
def undoing (strokes : List Stroke) : List Stroke :=
  (strokes.map opposite).reverse

end Stroke

/-- A tape after these strokes. -/
def Tape.follow (tape : Tape) (strokes : List Stroke) : Tape :=
  strokes.foldl (fun tape stroke => tape.apply stroke.command 0) tape

/-- Whether the cell under the pointer is zero after so many passes through
the strokes, if every pass begins at the same place. -/
def Tape.ClearedBy (tape : Tape) (strokes : List Stroke) (passes : Nat) : Prop :=
  tape.current +
    UInt8.ofInt (passes * Stroke.gain tape.length tape.pointer tape.pointer strokes) = 0

instance (tape : Tape) (strokes : List Stroke) : DecidablePred (tape.ClearedBy strokes) :=
  fun _ => inferInstanceAs (Decidable (_ = _))

namespace Program

/-- The program of a row of strokes. -/
def ofStrokes (strokes : List Stroke) : Program :=
  (strokes.map fun stroke => .command stroke.command).toArray

/-- The program of a loop with a row of strokes as its body. -/
def ofLoop (body : List Stroke) : Program :=
  (.loopStart :: (body.map (fun stroke => .command stroke.command) ++ [.loopEnd])).toArray

end Program

namespace Tape

/-- The index on the left of a pointer, in words. -/
def wordLeft (length pointer : UInt64) : UInt64 :=
  (pointer + length - 1) % length

/-- The index on the right of a pointer, in words. -/
def wordRight (length pointer : UInt64) : UInt64 :=
  (pointer + 1) % length

/-- The moves of a tape can be computed in words: no sum on the way is too
large for a word, and the words say where the pointer goes. -/
structure FitsWords (tape : Tape) : Prop where
  leftSum : tape.pointer + tape.length < UInt64.size
  rightSum : tape.pointer + 1 < UInt64.size
  left : (wordLeft (.ofNat tape.length) (.ofNat tape.pointer)).toNat = tape.moveLeft.pointer
  right : (wordRight (.ofNat tape.length) (.ofNat tape.pointer)).toNat = tape.moveRight.pointer

end Tape
end RingTape
