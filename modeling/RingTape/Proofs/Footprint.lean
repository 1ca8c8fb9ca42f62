import RingTape.Footprint
import RingTape.Proofs.OtherTapes

namespace RingTape

/-!
# A run depends on the cells it visits

An instruction reads and writes the current cell and no other.  So a run
leaves every cell alone that its pointer does not visit
(`Program.getElem?_executeAmid`), and it does not notice what such a cell
holds: `Tape.graft` puts the cells of another tape in place of all that are
not visited, and no instruction notices that (`Tape.unnoticed_graft`).

Which cells are visited depends in turn on what the run reads there.  Two
tapes that agree on the cells visited from one of them lead to runs that
visit the same cells, and that differ in nothing but the cells that neither
of them visits (`Program.executeAmid_of_agreeing`).
-/

namespace Tape

/-! ## Keeping some cells -/

/-- A tape that keeps the cells at these indices and has all others from the
tape `own`. -/
def graft (own : Tape) (kept : List Nat) (tape : Tape) : Tape where
  cells := Array.ofFn fun index : Fin tape.cells.size =>
    if index.val ∈ kept then getElem tape.cells index.val index.isLt
    else own.cells[index.val]?.getD 0
  pointer := tape.pointer
  inside := by
    rw [Array.size_ofFn]
    exact tape.inside

variable {own tape : Tape} {kept : List Nat} {index : Nat}

theorem size_graft (own : Tape) (kept : List Nat) (tape : Tape) :
    (own.graft kept tape).cells.size = tape.cells.size := Array.size_ofFn

theorem getElem?_graft (inside : index < tape.cells.size) :
    (own.graft kept tape).cells[index]? =
      if index ∈ kept then tape.cells[index]? else some (own.cells[index]?.getD 0) := by
  rw [graft, Array.getElem?_ofFn, dif_pos inside, Array.getElem?_eq_getElem inside]
  exact apply_ite some _ _ _

theorem getElem?_graft_of_mem (member : index ∈ kept) :
    (own.graft kept tape).cells[index]? = tape.cells[index]? := by
  by_cases inside : index < tape.cells.size
  · rw [getElem?_graft inside, if_pos member]
  · have outside := Nat.le_of_not_lt inside
    rw [Array.getElem?_eq_none outside, Array.getElem?_eq_none (size_graft own kept tape ▸ outside)]

theorem getElem?_graft_of_notMem (size : own.cells.size = tape.cells.size)
    (absent : index ∉ kept) : (own.graft kept tape).cells[index]? = own.cells[index]? := by
  by_cases inside : index < tape.cells.size
  · rw [getElem?_graft inside, if_neg absent, Array.getElem?_eq_getElem (size ▸ inside),
      Option.getD_some]
  · have outside := Nat.le_of_not_lt inside
    rw [Array.getElem?_eq_none (size_graft own kept tape ▸ outside),
      Array.getElem?_eq_none (size ▸ outside)]

theorem current_graft (visited : tape.pointer ∈ kept) :
    (own.graft kept tape).current = tape.current := by
  apply Option.some.inj
  rw [current_eq, current_eq]
  exact getElem?_graft_of_mem visited

theorem put_graft (visited : tape.pointer ∈ kept) (value : UInt8) :
    (own.graft kept tape).put value = own.graft kept (tape.put value) := by
  have sizes : ((own.graft kept tape).put value).cells.size =
      (own.graft kept (tape.put value)).cells.size := by
    rw [size_put, size_graft, size_graft, size_put]
  refine eq_of_cells rfl sizes fun index inside => ?_
  rw [size_put, size_graft] at inside
  rw [getElem?_graft (Nat.lt_of_lt_of_eq inside (size_put tape value).symm)]
  simp only [put]
  rw [Array.getElem?_set, Array.getElem?_set, getElem?_graft inside]
  by_cases here : tape.pointer = index
  · subst here
    rw [if_pos visited, if_pos visited]
    rfl
  · rw [if_neg here]
    exact if_neg here

/-- No instruction at a cell that is kept notices what the other cells
hold. -/
theorem unnoticed_graft (own : Tape) (visited : tape.pointer ∈ kept)
    (instruction : Instruction) : tape.Unnoticed (own.graft kept) instruction where
  current := current_graft visited
  apply action supplied _ := by
    have moved (first second : Nat) (same : first = second)
        (inside : first < (own.graft kept tape).cells.size) (within : second < tape.cells.size) :
        (⟨(own.graft kept tape).cells, first, inside⟩ : Tape) =
          own.graft kept ⟨tape.cells, second, within⟩ := by
      subst same
      rfl
    cases action with
    | moveLeft => exact moved _ _ (by rw [size_graft]; rfl) _ _
    | moveRight => exact moved _ _ (by rw [size_graft]; rfl) _ _
    | increment =>
      simp only [apply, current_graft visited]
      exact put_graft visited _
    | decrement =>
      simp only [apply, current_graft visited]
      exact put_graft visited _
    | output => rfl
    | input => exact put_graft visited supplied

end Tape

namespace Run

/-! ## One step -/

variable {options : Options} {program : Program}

/-- The tape after a step is the tape before it, or what one command made of
it. -/
theorem tape_advance (run : Run) (options : Options) (program : Program) :
    (run.advance options program).run.machine.tape = run.machine.tape ∨
      ∃ action supplied,
        (run.advance options program).run.machine.tape =
          run.machine.tape.apply action supplied := by
  have stepped {instruction : Instruction} {supplied : UInt8} {machine : Machine}
      (step : run.machine.step program instruction supplied = .ok machine) :
      machine.tape = run.machine.tape ∨
        ∃ action supplied, machine.tape = run.machine.tape.apply action supplied := by
    have after := Machine.tape_of_step step
    cases instruction with
    | command action => exact .inr ⟨action, supplied, after⟩
    | loopStart => exact .inl after
    | loopEnd => exact .inl after
  have outcome := outcome_advance run options program
  generalize run.advance options program = progress at outcome
  cases outcome with
  | finished _ => exact .inl rfl
  | interrupted _ _ _ => exact .inl rfl
  | limited _ _ _ _ _ => exact .inl rfl
  | refused _ _ _ _ _ _ => exact .inl rfl
  | performed _ _ _ _ _ _ _ step => exact stepped step
  | rowRefused _ _ _ _ _ _ step _ => exact stepped step
  | rowWritten _ _ _ _ _ step _ => exact stepped step
  | stuck _ _ _ _ _ _ _ _ => exact .inl rfl
  | rowStuck _ _ _ _ _ => exact .inl rfl

theorem size_advance (run : Run) (options : Options) (program : Program) :
    (run.advance options program).run.machine.tape.cells.size = run.machine.tape.cells.size := by
  rcases tape_advance run options program with same | ⟨action, supplied, applied⟩
  · rw [same]
  · rw [applied]
    exact Tape.length_apply _ action supplied

/-- A step changes no cell but the one its pointer rests on. -/
theorem getElem?_advance {run : Run} {index : Nat} (other : index ≠ run.machine.tape.pointer) :
    (run.advance options program).run.machine.tape.cells[index]? =
      run.machine.tape.cells[index]? := by
  rcases tape_advance run options program with same | ⟨action, supplied, applied⟩
  · rw [same]
  · rw [applied]
    exact Tape.getElem?_apply_of_ne other action supplied

end Run

namespace Program

open Progress (running ended)

/-! ## A whole run -/

variable {program : Program} {options : Options} {tape first second : Tape} {console : Console}
  {signals : Signals} {budget : Nat}

theorem mem_visited_iff {index : Nat} :
    index ∈ program.visited options tape console signals budget ↔
      ∃ count ≤ budget,
        (program.executeAmid options tape console signals count).pointer = index := by
  simp only [visited, List.mem_map, List.mem_range, Nat.lt_succ_iff]

theorem mem_visited_of_running {count : Nat} {run : Run} (within : count ≤ budget)
    (reached : program.executeAmid options tape console signals count = running run) :
    run.machine.tape.pointer ∈ program.visited options tape console signals budget := by
  refine mem_visited_iff.mpr ⟨count, within, ?_⟩
  rw [reached]
  rfl

theorem size_executeAmid (program : Program) (options : Options) (tape : Tape)
    (console : Console) (signals : Signals) (budget : Nat) :
    (program.executeAmid options tape console signals budget).run.machine.tape.cells.size =
      tape.cells.size := by
  apply Progress.iterateAmid_preserves options program signals
    (motive := fun progress => progress.run.machine.tape.cells.size = tape.cells.size)
  · intro run kept
    exact (Run.size_advance (run.signalled signals) options program).trans kept
  · rw [Run.machine_begin]
    rfl

/-- A cell that is not visited keeps its value. -/
theorem getElem?_executeAmid {index : Nat}
    (unvisited : index ∉ program.visited options tape console signals budget) :
    (program.executeAmid options tape console signals budget).run.machine.tape.cells[index]? =
      tape.cells[index]? := by
  induction budget with
  | zero =>
    rw [executeAmid_zero, Run.machine_begin]
    rfl
  | succ budget ih =>
    have before := ih fun member => unvisited <| by
      rcases mem_visited_iff.mp member with ⟨count, within, there⟩
      exact mem_visited_iff.mpr ⟨count, Nat.le_succ_of_le within, there⟩
    by_cases going : ∃ run, program.executeAmid options tape console signals budget = running run
    · rcases going with ⟨run, reached⟩
      have other : index ≠ run.machine.tape.pointer := by
        rintro rfl
        exact unvisited (mem_visited_of_running (Nat.le_succ budget) reached)
      rw [reached] at before
      rw [executeAmid_succ_of_running reached,
        Run.getElem?_advance (Run.machine_signalled run signals ▸ other)]
      exact before
    · rw [executeAmid_succ_of_over (not_exists.mp going)]
      exact before

/-- The cells that are not visited can be taken from any other tape. -/
theorem executeAmid_graft (own : Tape) {count : Nat} (within : count ≤ budget) :
    program.executeAmid options
        (own.graft (program.visited options tape console signals budget) tape) console signals
        count =
      (program.executeAmid options tape console signals count).onTape
        (own.graft (program.visited options tape console signals budget)) := by
  apply executeAmid_onTape
  intro moment run less reached
  have visited := mem_visited_of_running (Nat.le_trans (Nat.le_of_lt less) within) reached
  constructor
  · intro instruction _
    exact Tape.unnoticed_graft own visited instruction
  · intro instruction machine _ _ stepped
    refine Run.rowText_onTape (fun _ => rfl) (fun shown same => ?_) stepped
    apply Tape.current_graft
    rw [same]
    exact visited

/-- A run reads and writes only the cells that its pointer visits.  On a tape
that agrees with the first one on all of them it goes on in the same way:
its pointer visits the same cells in the same order, and at the end of the
budget only the tapes can be told apart.  They agree on every visited cell,
and each has every other cell still as it was. -/
theorem executeAmid_of_agreeing (length : second.length = first.length)
    (pointer : second.pointer = first.pointer)
    (agree : ∀ index ∈ program.visited options first console signals budget,
      second.cells[index]? = first.cells[index]?) :
    program.visited options second console signals budget =
        program.visited options first console signals budget ∧
      ∃ final : Tape,
        program.executeAmid options second console signals budget =
            (program.executeAmid options first console signals budget).onTape
              (fun _ => final) ∧
          final.pointer = (program.executeAmid options first console signals budget).pointer ∧
          (∀ index ∈ program.visited options first console signals budget,
            final.cells[index]? =
              (program.executeAmid options first console signals
                budget).run.machine.tape.cells[index]?) ∧
          ∀ index ∉ program.visited options first console signals budget,
            final.cells[index]? = second.cells[index]? ∧
              (program.executeAmid options first console signals
                budget).run.machine.tape.cells[index]? = first.cells[index]? := by
  have grafted : second.graft (program.visited options first console signals budget) first =
      second := by
    refine Tape.eq_of_cells pointer.symm ((Tape.size_graft _ _ _).trans length.symm) ?_
    intro index _
    by_cases member : index ∈ program.visited options first console signals budget
    · rw [Tape.getElem?_graft_of_mem member, agree index member]
    · rw [Tape.getElem?_graft_of_notMem length member]
  have abreast {count : Nat} (within : count ≤ budget) :=
    @executeAmid_graft program options first console signals budget second count within
  rw [grafted] at abreast
  constructor
  · apply List.map_congr_left
    intro count member
    rw [abreast (Nat.le_of_lt_succ (List.mem_range.mp member))]
    cases program.executeAmid options first console signals count <;> rfl
  · refine ⟨second.graft (program.visited options first console signals budget)
      (program.executeAmid options first console signals budget).run.machine.tape, ?_, rfl, ?_, ?_⟩
    · rw [abreast (Nat.le_refl budget)]
      exact Progress.onTape_eq _ _
    · intro index member
      exact Tape.getElem?_graft_of_mem member
    · intro index absent
      have size := size_executeAmid program options first console signals budget
      exact ⟨Tape.getElem?_graft_of_notMem (length.trans size.symm) absent,
        getElem?_executeAmid absent⟩

/-- The number that is read settles how long the loop goes on between the
first two cells.  What the other two cells hold makes no difference. -/
theorem agreeing_on_two_cells :
    ∃ program run, parse ",[>+<-]>." = .ok program ∧
      program.visited { mode := .numeric } ⟨#[5, 1, 7, 9], 0, by decide⟩
        { input := .ofBytes [50, 10] } .silent 15 =
          [0, 0, 0, 1, 1, 0, 0, 0, 1, 1, 0, 0, 0, 1, 1, 1] ∧
      program.executeAmid { mode := .numeric } ⟨#[5, 1, 0, 3], 0, by decide⟩
        { input := .ofBytes [50, 10] } .silent 15 = .ended .completed run ∧
      run.machine.tape.cells[1]? = some 3 ∧ run.machine.tape.cells[2]? = some 0 ∧
      run.machine.tape.cells[3]? = some 3 ∧
      run.console.output.accepted.toList = Text.encode "3\nDone!\n" := by
  have read : parse ",[>+<-]>." = .ok #[.command .input, .loopStart, .command .moveRight,
      .command .increment, .command .moveLeft, .command .decrement, .loopEnd,
      .command .moveRight, .command .output] := rfl
  have visited : Program.visited #[.command .input, .loopStart, .command .moveRight,
      .command .increment, .command .moveLeft, .command .decrement, .loopEnd,
      .command .moveRight, .command .output] { mode := .numeric } ⟨#[5, 1, 7, 9], 0, by decide⟩
      { input := .ofBytes [50, 10] } .silent 15 =
        [0, 0, 0, 1, 1, 0, 0, 0, 1, 1, 0, 0, 0, 1, 1, 1] := rfl
  have alike := @executeAmid_of_agreeing #[.command .input, .loopStart, .command .moveRight,
      .command .increment, .command .moveLeft, .command .decrement, .loopEnd,
      .command .moveRight, .command .output] { mode := .numeric } ⟨#[5, 1, 7, 9], 0, by decide⟩
    ⟨#[5, 1, 0, 3], 0, by decide⟩ { input := .ofBytes [50, 10] } .silent 15 rfl rfl
    (by rw [visited]; decide)
  rw [visited] at alike
  rcases alike with ⟨_, final, goes, _, kept, others⟩
  exact ⟨_, _, read, visited, goes, kept 1 (by decide), (others 2 (by decide)).1,
    (others 3 (by decide)).1, rfl⟩

end Program
end RingTape
