import RingTape.Program

namespace RingTape
namespace Program

/-!
# The end of a loop

A loop that is not entered is left by a forward search for its end.  The
search counts the loops that open on the way, so it finds the bracket that
belongs to the one it started from.  It looks at the program alone: neither
the places of the source text nor the loops that a run has entered matter.
A search that falls off the program finds nothing, which does not happen in
a balanced program.
-/

/-- The first closing bracket at or after `position` that is outside the
`depth` loops which opened since the search began. -/
def closingFrom (program : Program) (depth position : Nat) : Option Nat :=
  if inside : position < program.size then
    match program[position] with
    | .loopStart => closingFrom program (depth + 1) (position + 1)
    | .loopEnd =>
      match depth with
      | 0 => some position
      | outer + 1 => closingFrom program outer (position + 1)
    | .command _ => closingFrom program depth (position + 1)
  else
    none
termination_by program.size - position

/-- The closing bracket of the loop that opens at `start`. -/
def matchingEnd? (program : Program) (start : Nat) : Option Nat :=
  program.closingFrom 0 (start + 1)

/-- The loops of a program, each as the places of its two brackets, in the
order in which they open. -/
def loops (program : Program) : List (Nat × Nat) :=
  (List.range program.size).filterMap fun start =>
    if program[start]? = some .loopStart then
      (program.matchingEnd? start).map fun close => (start, close)
    else
      none

theorem lt_of_closingFrom {program : Program} {depth position close : Nat}
    (found : program.closingFrom depth position = some close) :
    position ≤ close ∧ close < program.size := by
  fun_induction closingFrom program depth position with
  | case1 depth position inside bracket ih => have := ih found; omega
  | case2 position inside bracket => cases found; omega
  | case3 position inside bracket outer ih => have := ih found; omega
  | case4 depth position inside action other ih => have := ih found; omega
  | case5 => cases found

section Searching

variable {program : Program} {position : Nat}

theorem closingFrom_loopStart (depth : Nat) (here : program[position]? = some .loopStart) :
    program.closingFrom depth position = program.closingFrom (depth + 1) (position + 1) := by
  rcases Array.getElem?_eq_some_iff.mp here with ⟨inside, found⟩
  rw [closingFrom.eq_def, dif_pos inside, found]

theorem closingFrom_zero_loopEnd (here : program[position]? = some .loopEnd) :
    program.closingFrom 0 position = some position := by
  rcases Array.getElem?_eq_some_iff.mp here with ⟨inside, found⟩
  rw [closingFrom.eq_def, dif_pos inside, found]

theorem closingFrom_succ_loopEnd (depth : Nat) (here : program[position]? = some .loopEnd) :
    program.closingFrom (depth + 1) position = program.closingFrom depth (position + 1) := by
  rcases Array.getElem?_eq_some_iff.mp here with ⟨inside, found⟩
  rw [closingFrom.eq_def, dif_pos inside, found]

theorem closingFrom_command (depth : Nat) {action : Command}
    (here : program[position]? = some (.command action)) :
    program.closingFrom depth position = program.closingFrom depth (position + 1) := by
  rcases Array.getElem?_eq_some_iff.mp here with ⟨inside, found⟩
  rw [closingFrom.eq_def, dif_pos inside, found]

theorem closingFrom_none (depth : Nat) (here : program[position]? = none) :
    program.closingFrom depth position = none := by
  rw [closingFrom.eq_def, dif_neg (Nat.not_lt_of_le (Array.getElem?_eq_none_iff.mp here))]

end Searching

end Program
end RingTape
