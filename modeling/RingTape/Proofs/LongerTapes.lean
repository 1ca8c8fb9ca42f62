import RingTape.Proofs.Footprint

namespace RingTape

/-!
# Runs on a longer tape

A ring that is cut open behind its last cell can be made longer there
(`Tape.lengthen`).  The only instructions that notice are the two moves
across the cut: on the longer ring they come out at a different cell.  All
others find the same cell under the pointer, although every move reduces its
index by another length.

So a run that never crosses an end of its tape is the same run on every tape
that begins with the same cells (`Program.executeAmid_of_uncrossed`).
-/

namespace Tape

/-- A tape with more cells behind its last one. -/
def lengthen (more : Array UInt8) (tape : Tape) : Tape where
  cells := tape.cells ++ more
  pointer := tape.pointer
  inside := by
    rw [Array.size_append]
    exact Nat.lt_add_right more.size tape.inside

variable {more : Array UInt8} {tape longer : Tape} {index : Nat}

theorem getElem?_lengthen_of_lt (inside : index < tape.cells.size) :
    (tape.lengthen more).cells[index]? = tape.cells[index]? :=
  Array.getElem?_append_left inside

theorem getElem?_lengthen_of_le (behind : tape.cells.size ≤ index) :
    (tape.lengthen more).cells[index]? = more[index - tape.cells.size]? :=
  Array.getElem?_append_right behind

@[simp]
theorem current_lengthen (more : Array UInt8) (tape : Tape) :
    (tape.lengthen more).current = tape.current := by
  apply Option.some.inj
  rw [current_eq, current_eq]
  exact getElem?_lengthen_of_lt tape.inside

theorem put_lengthen (more : Array UInt8) (tape : Tape) (value : UInt8) :
    (tape.lengthen more).put value = (tape.put value).lengthen more := by
  refine eq_of_cells rfl ?_ fun index _ => ?_
  · rw [size_put, lengthen, lengthen, Array.size_append, Array.size_append, size_put]
  · simp only [lengthen, put, Array.set_append_left tape.inside]

/-- A move to the left notices nothing, unless it starts from the first
cell. -/
theorem moveLeft_lengthen (more : Array UInt8) (other : tape.pointer ≠ 0) :
    (tape.lengthen more).moveLeft = tape.moveLeft.lengthen more := by
  have inside := tape.inside
  refine eq_of_cells ?_ rfl fun _ _ => rfl
  have before (length : Nat) (within : tape.pointer < length) :
      (tape.pointer + length - 1) % length = tape.pointer - 1 := by
    have shifted : tape.pointer + length - 1 = tape.pointer - 1 + length := by omega
    rw [shifted, Nat.add_mod_right, Nat.mod_eq_of_lt (by omega)]
  change (tape.pointer + (tape.lengthen more).cells.size - 1) % (tape.lengthen more).cells.size =
    (tape.pointer + tape.cells.size - 1) % tape.cells.size
  rw [before _ inside, before _ (tape.lengthen more).inside]

/-- A move to the right notices nothing, unless it starts from the last
cell. -/
theorem moveRight_lengthen (more : Array UInt8) (other : tape.pointer + 1 ≠ tape.length) :
    (tape.lengthen more).moveRight = tape.moveRight.lengthen more := by
  have within : tape.pointer + 1 < tape.cells.size := Nat.lt_of_le_of_ne tape.inside other
  refine eq_of_cells ?_ rfl fun _ _ => rfl
  change (tape.pointer + 1) % (tape.cells ++ more).size = (tape.pointer + 1) % tape.cells.size
  rw [Nat.mod_eq_of_lt within, Array.size_append, Nat.mod_eq_of_lt (by omega)]

/-- Every tape that begins with the same cells is a longer one. -/
theorem eq_lengthen (pointer : longer.pointer = tape.pointer)
    (cells : ∀ index < tape.length, longer.cells[index]? = tape.cells[index]?) :
    longer = tape.lengthen (longer.cells.extract tape.length longer.length) := by
  simp only [length] at cells ⊢
  have within : tape.cells.size ≤ longer.cells.size := by
    apply Nat.le_of_not_lt
    intro shorter
    have same := cells longer.cells.size shorter
    rw [Array.getElem?_eq_none (Nat.le_refl _), Array.getElem?_eq_getElem shorter] at same
    cases same
  have size : longer.cells.size =
      (tape.lengthen (longer.cells.extract tape.cells.size longer.cells.size)).cells.size := by
    rw [lengthen, Array.size_append, Array.size_extract, Nat.min_self]
    omega
  refine eq_of_cells pointer size fun index inside => ?_
  by_cases early : index < tape.cells.size
  · rw [getElem?_lengthen_of_lt early, cells index early]
  · have late := Nat.le_of_not_lt early
    rw [getElem?_lengthen_of_le late, Array.getElem?_extract, Nat.add_sub_of_le late, Nat.min_self,
      if_pos (Nat.sub_lt_sub_right late inside)]

end Tape

namespace Run

variable {run : Run} {options : Options} {program : Program}

/-- An attempted instruction that crosses no end notices no cells behind the
last one. -/
theorem overlooks_lengthen (more : Array UInt8) (tried : run.attempts options program = true)
    (uncrossed : ¬ run.Crosses options program) :
    run.Overlooks (.lengthen more) options program where
  unnoticed instruction here := by
    refine ⟨Tape.current_lengthen more _, ?_⟩
    rintro action supplied rfl
    cases action with
    | moveLeft =>
      exact Tape.moveLeft_lengthen more fun first => uncrossed ⟨tried, .inl ⟨here, first⟩⟩
    | moveRight =>
      exact Tape.moveRight_lengthen more fun last => uncrossed ⟨tried, .inr ⟨here, last⟩⟩
    | increment =>
      simp [Tape.apply]
      exact Tape.put_lengthen more _ _
    | decrement =>
      simp [Tape.apply]
      exact Tape.put_lengthen more _ _
    | output => rfl
    | input => exact Tape.put_lengthen more _ supplied
  row instruction machine _ _ stepped :=
    rowText_onTape (fun _ => rfl) (fun tape _ => Tape.current_lengthen more tape) stepped

end Run

namespace Program

open Progress (running ended)

/-- A run that never carries out a move across an end of its tape goes on in
the same way on every tape with the same pointer that begins with the same
cells.  It takes as many steps, ends alike, writes and reads the same, and at
the end of the budget only the tapes can be told apart: the first cells are
those of the original run, and the further cells are unchanged. -/
theorem executeAmid_of_uncrossed {program : Program} {options : Options} {tape longer : Tape}
    {console : Console} {signals : Signals} {budget : Nat}
    (pointer : longer.pointer = tape.pointer)
    (cells : ∀ index < tape.length, longer.cells[index]? = tape.cells[index]?)
    (uncrossed : ∀ count run, count < budget →
      program.executeAmid options tape console signals count = running run →
        ¬ (run.signalled signals).Crosses options program) :
    ∃ final : Tape,
      program.executeAmid options longer console signals budget =
          (program.executeAmid options tape console signals budget).onTape (fun _ => final) ∧
        final.pointer = (program.executeAmid options tape console signals budget).pointer ∧
        (∀ index < tape.length, final.cells[index]? =
          (program.executeAmid options tape console signals
            budget).run.machine.tape.cells[index]?) ∧
        ∀ index, tape.length ≤ index → final.cells[index]? = longer.cells[index]? := by
  have abreast := executeAmid_onTape_of_attempts fun count run less reached tried =>
    Run.overlooks_lengthen (longer.cells.extract tape.length longer.length) tried
      (uncrossed count run less reached)
  rw [← Tape.eq_lengthen pointer cells] at abreast
  have size := size_executeAmid program options tape console signals budget
  refine ⟨.lengthen (longer.cells.extract tape.length longer.length)
    (program.executeAmid options tape console signals budget).run.machine.tape, ?_, rfl, ?_, ?_⟩
  · rw [abreast]
    exact Progress.onTape_eq _ _
  · intro index inside
    exact Tape.getElem?_lengthen_of_lt (Nat.lt_of_lt_of_eq inside size.symm)
  · intro index behind
    rw [Tape.getElem?_lengthen_of_le (Nat.le_trans (Nat.le_of_eq size) behind), size,
      ← Tape.getElem?_lengthen_of_le behind, ← Tape.eq_lengthen pointer cells]

/-- The run goes back and forth between the only two cells of its tape.  A
third cell makes no difference, although the last cell is another one. -/
theorem uncrossed_between_two_cells :
    ∃ program run, parse "[>+.<-]>." = .ok program ∧
      (∀ count < 16, ¬ ((program.executeAmid { mode := .numeric } ⟨#[2, 7], 0, by decide⟩ {}
        .silent count).run.signalled .silent).Crosses { mode := .numeric } program) ∧
      program.executeAmid { mode := .numeric } ⟨#[2, 7, 200], 0, by decide⟩ {} .silent 16 =
        .ended .completed run ∧
      run.steps = 15 ∧ run.machine.tape.pointer = 1 ∧
      run.machine.tape.cells[1]? = some 9 ∧ run.machine.tape.cells[2]? = some 200 ∧
      run.console.output.accepted.toList = Text.encode "8 9 9\nDone!\n" := by
  have read : parse "[>+.<-]>." = .ok #[.loopStart, .command .moveRight, .command .increment,
      .command .output, .command .moveLeft, .command .decrement, .loopEnd, .command .moveRight,
      .command .output] := rfl
  have stays : ∀ count < 16, ¬ ((Program.executeAmid #[.loopStart, .command .moveRight,
      .command .increment, .command .output, .command .moveLeft, .command .decrement, .loopEnd,
      .command .moveRight, .command .output] { mode := .numeric } ⟨#[2, 7], 0, by decide⟩ {}
      .silent count).run.signalled .silent).Crosses { mode := .numeric }
        #[.loopStart, .command .moveRight, .command .increment, .command .output,
          .command .moveLeft, .command .decrement, .loopEnd, .command .moveRight,
          .command .output] := by decide +kernel
  have alike := @executeAmid_of_uncrossed #[.loopStart, .command .moveRight,
      .command .increment, .command .output, .command .moveLeft, .command .decrement, .loopEnd,
      .command .moveRight, .command .output] { mode := .numeric } ⟨#[2, 7], 0, by decide⟩
    ⟨#[2, 7, 200], 0, by decide⟩ {} .silent 16 rfl (by decide)
    (fun count run less reached => by
      have here := stays count less
      rw [reached] at here
      exact here)
  rcases alike with ⟨final, goes, pointer, kept, further⟩
  exact ⟨_, _, read, stays, goes, rfl, pointer, kept 1 (by decide), further 2 (by decide), rfl⟩

end Program
end RingTape
