import RingTape.Program.Matching
import RingTape.Program.Tree

namespace RingTape

/-!
# Trees inside programs

A tree is placed at a position of a program when its instructions are what
the program continues with there.  Then its parts are placed behind each
other, and the search for the end of one of its loops finds the bracket that
the tree puts there: a search runs past a placed tree without noticing it.
-/

/-- The instructions of a tree begin at a position of a program. -/
def Tree.Placed (program : Program) (position : Nat) (tree : Tree) : Prop :=
  tree.instructions <+: program.toList.drop position

namespace Tree

variable {program : Program} {position : Nat} {body rest : Tree} {action : Command}

private theorem cons_prefix_drop {first : Instruction} {more : List Instruction}
    (front : first :: more <+: program.toList.drop position) :
    program[position]? = some first ∧ more <+: program.toList.drop (position + 1) := by
  rcases front with ⟨tail, whole⟩
  constructor
  · have head : (program.toList.drop position)[0]? = some first := by
      rw [← whole]
      rfl
    rwa [List.getElem?_drop, Nat.add_zero, Array.getElem?_toList] at head
  · refine ⟨tail, ?_⟩
    have behind : (program.toList.drop position).drop 1 = more ++ tail := by
      rw [← whole]
      rfl
    rwa [List.drop_drop, eq_comm] at behind

private theorem append_prefix_drop {front more : List Instruction}
    (whole : front ++ more <+: program.toList.drop position) :
    front <+: program.toList.drop position ∧
      more <+: program.toList.drop (position + front.length) := by
  rcases whole with ⟨tail, same⟩
  refine ⟨⟨more ++ tail, by rw [← List.append_assoc, same]⟩, tail, ?_⟩
  rw [← List.drop_drop, ← same, List.append_assoc, List.drop_left]

theorem placed_command (placed : (command action rest).Placed program position) :
    program[position]? = some (.command action) ∧ rest.Placed program (position + 1) :=
  cons_prefix_drop placed

/-- The parts of a placed loop: its two brackets, its body, and what follows. -/
theorem placed_loop (placed : (loop body rest).Placed program position) :
    program[position]? = some .loopStart ∧ body.Placed program (position + 1) ∧
      program[position + body.size + 1]? = some .loopEnd ∧
      rest.Placed program (position + body.size + 2) := by
  rcases cons_prefix_drop placed with ⟨opening, inside⟩
  rcases append_prefix_drop inside with ⟨bodyPlaced, behind⟩
  rw [length_instructions] at behind
  rcases cons_prefix_drop behind with ⟨ending, restPlaced⟩
  have last : position + 1 + body.size = position + body.size + 1 := by omega
  rw [last] at ending restPlaced
  exact ⟨opening, bodyPlaced, ending, restPlaced⟩

/-- The number of loops that a search has entered is the same behind a tree. -/
theorem closingFrom_of_placed {tree : Tree} (placed : tree.Placed program position)
    (depth : Nat) :
    program.closingFrom depth position = program.closingFrom depth (position + tree.size) := by
  induction tree generalizing position depth with
  | done => rfl
  | command action rest ih =>
    rcases placed_command placed with ⟨here, behind⟩
    rw [Program.closingFrom_command depth here, ih behind depth, size]
    congr 1
    omega
  | loop body rest ihBody ihRest =>
    rcases placed_loop placed with ⟨opening, inside, ending, behind⟩
    have last : position + 1 + body.size = position + body.size + 1 := by omega
    rw [Program.closingFrom_loopStart depth opening, ihBody inside (depth + 1), last,
      Program.closingFrom_succ_loopEnd depth ending, ihRest behind depth, size]
    congr 1
    omega

theorem matchingEnd?_of_placed (placed : (loop body rest).Placed program position) :
    program.matchingEnd? position = some (position + body.size + 1) := by
  rcases placed_loop placed with ⟨opening, inside, ending, _⟩
  have last : position + 1 + body.size = position + body.size + 1 := by omega
  rw [Program.matchingEnd?, closingFrom_of_placed inside 0, last]
  exact Program.closingFrom_zero_loopEnd ending

/-- The tree of a whole program is placed at its beginning. -/
theorem placed_zero {tree : Tree} (written : tree.instructions = program.toList) :
    tree.Placed program 0 := by
  rw [Placed, List.drop_zero]
  exact ⟨[], (List.append_nil _).trans written⟩

end Tree
end RingTape
