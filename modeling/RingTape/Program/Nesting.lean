import RingTape.Program.Balance
import RingTape.Program.Matching

namespace RingTape
namespace Program

/-!
# Loops around a position

Three answers to the question which loops are open in front of a position.
`loopsAround` asks the search for the end of a loop, `openAfter` reads the
program from its beginning and keeps a stack, and `depthAt` only counts.
That they agree on balanced programs is a matter of proof; the definitions
do not refer to each other.
-/

/-- Whether the loop that opens at `start` reaches a position: its end is
there or further on. -/
def reaches (program : Program) (position start : Nat) : Bool :=
  program[start]? == some .loopStart &&
    (program.matchingEnd? start).any fun close => position ≤ close

/-- The loops that open before a position and reach it, in the order in
which they open. -/
def loopsAround (program : Program) (position : Nat) : List Nat :=
  (List.range position).filter (program.reaches position)

/-- The loops that reading so many instructions leaves open, innermost
first. -/
def openAfter (program : Program) : Nat → List Nat
  | 0 => []
  | count + 1 =>
    match program[count]? with
    | some .loopStart => count :: openAfter program count
    | some .loopEnd => (openAfter program count).tail
    | _ => openAfter program count

/-- How many more loops open than close before a position. -/
def depthAt (program : Program) (position : Nat) : Nat :=
  opens (program.toList.take position) - closes (program.toList.take position)

/-- The largest number of loops that are open at one position. -/
def nestingDepth (program : Program) : Nat :=
  ((List.range (program.size + 1)).map program.depthAt).max?.getD 0

theorem reaches_eq_true_iff {program : Program} {position start : Nat} :
    program.reaches position start = true ↔
      program[start]? = some .loopStart ∧
        ∃ close, program.matchingEnd? start = some close ∧ position ≤ close := by
  simp only [reaches, Bool.and_eq_true, beq_iff_eq, Option.any_eq_true, decide_eq_true_eq]

theorem mem_loopsAround_iff {program : Program} {position start : Nat} :
    start ∈ program.loopsAround position ↔
      start < position ∧ program[start]? = some .loopStart ∧
        ∃ close, program.matchingEnd? start = some close ∧ position ≤ close := by
  rw [loopsAround, List.mem_filter, List.mem_range, reaches_eq_true_iff]

theorem depthAt_le_nestingDepth {program : Program} {position : Nat}
    (inside : position ≤ program.size) : program.depthAt position ≤ program.nestingDepth := by
  apply List.le_max?_getD_of_mem
  exact List.mem_map_of_mem (List.mem_range.mpr (Nat.lt_succ_of_le inside))

section Reading

variable {program : Program} {count : Nat}

theorem openAfter_succ_loopStart (here : program[count]? = some .loopStart) :
    program.openAfter (count + 1) = count :: program.openAfter count := by
  simp only [openAfter, here]

theorem openAfter_succ_loopEnd (here : program[count]? = some .loopEnd) :
    program.openAfter (count + 1) = (program.openAfter count).tail := by
  simp only [openAfter, here]

theorem openAfter_succ_command {action : Command}
    (here : program[count]? = some (.command action)) :
    program.openAfter (count + 1) = program.openAfter count := by
  simp only [openAfter, here]

theorem openAfter_succ_none (here : program[count]? = none) :
    program.openAfter (count + 1) = program.openAfter count := by
  simp only [openAfter, here]

end Reading

end Program
end RingTape
