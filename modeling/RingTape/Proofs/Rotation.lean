import RingTape.Proofs.OtherTapes

namespace RingTape

/-!
# Turning the ring

A ring has no first cell.  `Tape.rotate` moves every cell on by the same
number of places, and the pointer with them.  The indices by which a tape is
stored change in this, and a pointer that would have come past the last cell
may now stay in the middle, or the other way round.  No command notices, and
so a run on a turned tape is the run on the original one, turned.

Rows of a traced run show the index of the pointer.  So this is about real
runs only.
-/

namespace Tape

/-- The index from which a cell comes that is at `index` after the ring was
turned. -/
def origin (length shift index : Nat) : Nat :=
  (index + (length - shift % length)) % length

/-- The ring turned by so many places to the right, together with its
pointer. -/
def rotate (shift : Nat) (tape : Tape) : Tape where
  cells := Array.ofFn fun index : Fin tape.cells.size =>
    getElem tape.cells (origin tape.cells.size shift index)
      (Nat.mod_lt _ (Nat.zero_lt_of_lt tape.inside))
  pointer := (tape.pointer + shift) % tape.cells.size
  inside := by
    rw [Array.size_ofFn]
    exact Nat.mod_lt _ (Nat.zero_lt_of_lt tape.inside)

section Indices

variable {length index : Nat}

theorem origin_add (shift : Nat) (inside : index < length) :
    origin length shift ((index + shift) % length) = index := by
  have positive : 0 < length := Nat.zero_lt_of_lt inside
  have part : shift % length < length := Nat.mod_lt shift positive
  have whole := Nat.div_add_mod shift length
  have turns : index + shift + (length - shift % length) =
      index + length * (shift / length + 1) := by
    rw [Nat.mul_add, Nat.mul_one]
    omega
  rw [origin, Nat.mod_add_mod, turns, Nat.add_mul_mod_self_left, Nat.mod_eq_of_lt inside]

theorem add_origin (shift : Nat) (inside : index < length) :
    (origin length shift index + shift) % length = index := by
  have positive : 0 < length := Nat.zero_lt_of_lt inside
  have part : shift % length < length := Nat.mod_lt shift positive
  have whole := Nat.div_add_mod shift length
  have turns : index + (length - shift % length) + shift =
      index + length * (shift / length + 1) := by
    rw [Nat.mul_add, Nat.mul_one]
    omega
  rw [origin, Nat.mod_add_mod, turns, Nat.add_mul_mod_self_left, Nat.mod_eq_of_lt inside]

end Indices

variable {tape : Tape} {shift index : Nat}

@[simp]
theorem size_rotate (shift : Nat) (tape : Tape) :
    (tape.rotate shift).cells.size = tape.cells.size :=
  Array.size_ofFn

@[simp]
theorem pointer_rotate (shift : Nat) (tape : Tape) :
    (tape.rotate shift).pointer = (tape.pointer + shift) % tape.cells.size := rfl

theorem getElem?_rotate (inside : index < tape.cells.size) :
    (tape.rotate shift).cells[index]? = tape.cells[origin tape.cells.size shift index]? := by
  have within : origin tape.cells.size shift index < tape.cells.size :=
    Nat.mod_lt _ (Nat.zero_lt_of_lt inside)
  rw [rotate, Array.getElem?_ofFn, dif_pos inside, Array.getElem?_eq_getElem within]
  rfl

/-- Every cell is moved on by the same number of places. -/
theorem getElem?_rotate_add (shift : Nat) (inside : index < tape.cells.size) :
    (tape.rotate shift).cells[(index + shift) % tape.cells.size]? = tape.cells[index]? := by
  rw [getElem?_rotate (Nat.mod_lt _ (Nat.zero_lt_of_lt inside)), origin_add shift inside]

@[simp]
theorem current_rotate (shift : Nat) (tape : Tape) :
    (tape.rotate shift).current = tape.current := by
  apply Option.some.inj
  rw [current_eq, current_eq, pointer_rotate, getElem?_rotate_add shift tape.inside]

theorem moveRight_rotate (shift : Nat) (tape : Tape) :
    (tape.rotate shift).moveRight = tape.moveRight.rotate shift := by
  refine eq_of_cells ?_ rfl fun _ _ => rfl
  change ((tape.pointer + shift) % tape.cells.size + 1) % (tape.rotate shift).cells.size =
    ((tape.pointer + 1) % tape.cells.size + shift) % tape.cells.size
  rw [size_rotate, Nat.mod_add_mod, Nat.mod_add_mod, Nat.add_right_comm]

theorem moveLeft_rotate (shift : Nat) (tape : Tape) :
    (tape.rotate shift).moveLeft = tape.moveLeft.rotate shift := by
  refine eq_of_cells ?_ rfl fun _ _ => rfl
  have positive : 1 ≤ tape.cells.size := Nat.zero_lt_of_lt tape.inside
  change ((tape.pointer + shift) % tape.cells.size + (tape.rotate shift).cells.size - 1) %
      (tape.rotate shift).cells.size =
    ((tape.pointer + tape.cells.size - 1) % tape.cells.size + shift) % tape.cells.size
  rw [size_rotate, Nat.add_sub_assoc positive, Nat.add_sub_assoc positive, Nat.mod_add_mod,
    Nat.mod_add_mod, Nat.add_right_comm]

/-- Storing a value and turning the ring can be done in either order. -/
theorem put_rotate (shift : Nat) (tape : Tape) (value : UInt8) :
    (tape.rotate shift).put value = (tape.put value).rotate shift := by
  have size := size_put tape value
  have turned : ((tape.rotate shift).put value).cells.size = tape.cells.size :=
    (size_put _ value).trans (size_rotate shift tape)
  refine eq_of_cells ?_ ?_ ?_
  · change _ = (tape.pointer + shift) % (tape.put value).cells.size
    rw [size]
    rfl
  · rw [turned, size_rotate, size]
  · intro index within
    have inside : index < tape.cells.size := Nat.lt_of_lt_of_eq within turned
    rw [getElem?_rotate (Nat.lt_of_lt_of_eq inside size.symm), size]
    simp only [put]
    rw [Array.getElem?_set, Array.getElem?_set, pointer_rotate, getElem?_rotate inside]
    have source : (tape.pointer + shift) % tape.cells.size = index ↔
        tape.pointer = origin tape.cells.size shift index := by
      constructor
      · intro target
        rw [← target, origin_add shift tape.inside]
      · intro target
        rw [target, add_origin shift inside]
    simp only [source]

theorem apply_rotate (shift : Nat) (tape : Tape) (action : Command) (supplied : UInt8) :
    (tape.rotate shift).apply action supplied = (tape.apply action supplied).rotate shift := by
  cases action with
  | moveLeft => exact moveLeft_rotate shift tape
  | moveRight => exact moveRight_rotate shift tape
  | increment =>
    simp [apply]
    exact put_rotate shift tape _
  | decrement =>
    simp [apply]
    exact put_rotate shift tape _
  | output => rfl
  | input => exact put_rotate shift tape supplied

/-- No instruction notices that the ring was turned. -/
theorem unnoticed_rotate (shift : Nat) (tape : Tape) (instruction : Instruction) :
    tape.Unnoticed (rotate shift) instruction where
  current := current_rotate shift tape
  apply action supplied _ := apply_rotate shift tape action supplied

end Tape

namespace Program

/-- A real run on a turned ring is the run on the original ring, turned: it
is as long, ends alike, writes and reads the same, and leaves behind the tape
that the original run leaves, turned by as many places.  Turning moves the
cell at each index, and the pointer, on by the same number of places. -/
theorem executeAmid_rotate {options : Options} (untraced : options.traced = false)
    (program : Program) (tape : Tape) (console : Console) (signals : Signals)
    (shift budget : Nat) :
    program.executeAmid options (tape.rotate shift) console signals budget =
        (program.executeAmid options tape console signals budget).onTape (.rotate shift) ∧
      ∀ tape : Tape, (tape.rotate shift).length = tape.length ∧
        (tape.rotate shift).pointer = (tape.pointer + shift) % tape.length ∧
        ∀ index < tape.length,
          (tape.rotate shift).cells[(index + shift) % tape.length]? = tape.cells[index]? := by
  constructor
  · apply executeAmid_onTape
    intro count run _ _
    refine ⟨fun instruction _ => Tape.unnoticed_rotate shift _ instruction, ?_⟩
    intro instruction machine _ traced
    rw [untraced] at traced
    cases traced
  · exact fun tape => ⟨Tape.size_rotate shift tape, rfl,
      fun index inside => Tape.getElem?_rotate_add shift inside⟩

/-- The loop takes the original run across the end of the ring and back.  On
the turned ring it stays in the first two cells. -/
theorem rotate_across_end :
    ∃ program run, parse "+[>+.<-]" = .ok program ∧
      program.executeAmid { mode := .numeric } (.rotate 4 ⟨#[7, 0, 1], 2, by decide⟩) {}
        .silent 15 = .ended .completed run ∧
      run.steps = 14 ∧ run.machine.tape = .rotate 4 ⟨#[9, 0, 0], 2, by decide⟩ ∧
      run.console.output.accepted.toList = Text.encode "8 9\nDone!\n" := by
  have read : parse "+[>+.<-]" = .ok #[.command .increment, .loopStart, .command .moveRight,
      .command .increment, .command .output, .command .moveLeft, .command .decrement,
      .loopEnd] := rfl
  have turned := (@executeAmid_rotate { mode := .numeric } rfl
    #[.command .increment, .loopStart, .command .moveRight, .command .increment,
      .command .output, .command .moveLeft, .command .decrement, .loopEnd]
    ⟨#[7, 0, 1], 2, by decide⟩ {} .silent 4 15).1
  exact ⟨_, _, read, turned, rfl, rfl, rfl⟩

end Program
end RingTape
