import RingTape.Instruction

namespace RingTape

/-!
# The tape

A tape is a ring of byte cells with a pointer that rests on one of them.
There is at least one cell, because the pointer needs a place to rest; the
bound is a field of the type, so reading the current cell never misses.
Moving past either end comes out at the other, and cells count modulo 256.

A command acts on the tape alone.  Where a command takes a value from
outside, that value is handed in: `Tape.apply` says what each command does
to the tape and leaves open how the value was obtained.
-/

/-- A ring of byte cells and a pointer to one of them. -/
structure Tape where
  cells : Array UInt8
  pointer : Nat
  inside : pointer < cells.size

namespace Tape

/-- The number of cells of a tape whose length nobody chose. -/
def defaultLength : Nat := 30000

/-- A tape with these cells and the pointer on the first one.  Without a
cell there is no tape. -/
def ofCells? (cells : Array UInt8) : Option Tape :=
  if inside : 0 < cells.size then some ⟨cells, 0, inside⟩ else none

/-- A tape of zero cells. -/
def blank? (length : Nat) : Option Tape :=
  ofCells? (Array.replicate length 0)

/-- The report on a tape that would have no cell. -/
def emptyMessage : String := "tape must have at least one cell"

/-- The number of cells. -/
def length (tape : Tape) : Nat := tape.cells.size

/-- Whether there is no cell, which is never so. -/
def isEmpty (tape : Tape) : Bool := tape.cells.isEmpty

/-- The cell under the pointer. -/
def current (tape : Tape) : UInt8 :=
  getElem tape.cells tape.pointer tape.inside

/-- Store a value under the pointer. -/
def put (tape : Tape) (value : UInt8) : Tape where
  cells := tape.cells.set tape.pointer value tape.inside
  pointer := tape.pointer
  inside := by simpa using tape.inside

/-- One cell to the left, from the first cell to the last. -/
def moveLeft (tape : Tape) : Tape where
  cells := tape.cells
  pointer := (tape.pointer + tape.cells.size - 1) % tape.cells.size
  inside := Nat.mod_lt _ (Nat.zero_lt_of_lt tape.inside)

/-- One cell to the right, from the last cell to the first. -/
def moveRight (tape : Tape) : Tape where
  cells := tape.cells
  pointer := (tape.pointer + 1) % tape.cells.size
  inside := Nat.mod_lt _ (Nat.zero_lt_of_lt tape.inside)

/-- What a command does to the tape.  The supplied value matters only to
input, which stores it; output reads the tape and leaves it alone. -/
def apply (tape : Tape) (command : Command) (supplied : UInt8) : Tape :=
  match command with
  | .moveLeft => tape.moveLeft
  | .moveRight => tape.moveRight
  | .increment => tape.put (tape.current + 1)
  | .decrement => tape.put (tape.current - 1)
  | .output => tape
  | .input => tape.put supplied

/-- The cells that are not zero, each with its index, in ascending order. -/
def nonzero (tape : Tape) : List (Nat × UInt8) :=
  (tape.cells.toList.zipIdx.filter fun entry => entry.1 ≠ 0).map fun entry => (entry.2, entry.1)

@[simp]
theorem blank?_zero : blank? 0 = none := rfl

theorem exists_blank? {length : Nat} (cells : length ≠ 0) : ∃ tape, blank? length = some tape := by
  have inside : 0 < (Array.replicate length (0 : UInt8)).size := by
    rw [Array.size_replicate]
    exact Nat.pos_of_ne_zero cells
  exact ⟨_, dif_pos inside⟩

theorem length_of_blank? {length : Nat} {tape : Tape} (made : blank? length = some tape) :
    tape.length = length := by
  simp only [blank?, ofCells?] at made
  split at made
  · cases made
    exact Array.size_replicate
  · cases made

@[simp]
theorem current_put (tape : Tape) (value : UInt8) : (tape.put value).current = value := by
  simp [current, put]

@[simp]
theorem length_apply (tape : Tape) (command : Command) (supplied : UInt8) :
    (tape.apply command supplied).length = tape.length := by
  cases command <;> simp [apply, length, put, moveLeft, moveRight]

end Tape
end RingTape
