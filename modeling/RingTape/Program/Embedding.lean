import RingTape.Program.Matching

namespace RingTape
namespace Program

/-!
# Programs inside programs

A program is embedded in another one when each of its instructions is found
there and control finds the next one.  Behind the end of a loop one more
loop may stand before the next instruction does: whoever leaves a loop
leaves it with a zero, so the other loop is passed by.  Nothing is said
about the instructions of the outer program that are not in the image, and
neither program needs to be balanced.

A search for the end of a loop looks at every instruction on its way.  It
too runs past a whole loop without noticing it, so an embedding respects
what the search finds.
-/

/-- How the instruction behind a position is found in an outer program. -/
inductive Seam (move : Nat → Nat) (inner outer : Program) (position : Nat) : Prop
  /-- It comes next there. -/
  | tight (next : move (position + 1) = move position + 1)
  /-- The position ends a loop, and another loop comes in between. -/
  | loop (close : Nat) (ending : inner[position]? = some .loopEnd)
    (opening : outer[move position + 1]? = some .loopStart)
    (found : outer.matchingEnd? (move position + 1) = some close)
    (next : move (position + 1) = close + 1)

/-- The instructions of one program are found in another one, each at the
place that `move` gives. -/
structure Embeds (move : Nat → Nat) (inner outer : Program) : Prop where
  carries : ∀ {position instruction}, inner[position]? = some instruction →
    outer[move position]? = some instruction
  seam : ∀ {position}, position < inner.size → Seam move inner outer position

/-- A search that leaves the loop whose end another search finds goes on
behind that end. -/
theorem closingFrom_add {program : Program} {depth position close : Nat}
    (found : program.closingFrom depth position = some close) (outer : Nat) :
    program.closingFrom (depth + 1 + outer) position =
      program.closingFrom outer (close + 1) := by
  fun_induction closingFrom program depth position with
  | case1 depth position inside bracket ih =>
    have here := Array.getElem?_eq_some_iff.mpr ⟨inside, bracket⟩
    rw [closingFrom_loopStart _ here, ← ih found]
    congr 1
    omega
  | case2 position inside bracket =>
    have here := Array.getElem?_eq_some_iff.mpr ⟨inside, bracket⟩
    cases found
    rw [Nat.zero_add, Nat.add_comm, closingFrom_succ_loopEnd outer here]
  | case3 position inside bracket depth ih =>
    have here := Array.getElem?_eq_some_iff.mpr ⟨inside, bracket⟩
    rw [Nat.add_right_comm, closingFrom_succ_loopEnd _ here, ← ih found]
  | case4 depth position inside action bracket ih =>
    have here := Array.getElem?_eq_some_iff.mpr ⟨inside, bracket⟩
    rw [closingFrom_command _ here, ih found]
  | case5 => cases found

/-- A search runs past a whole loop. -/
theorem closingFrom_of_matchingEnd? {program : Program} {start close : Nat}
    (opening : program[start]? = some .loopStart)
    (found : program.matchingEnd? start = some close) (depth : Nat) :
    program.closingFrom depth start = program.closingFrom depth (close + 1) := by
  rw [closingFrom_loopStart depth opening, ← closingFrom_add found depth, Nat.zero_add,
    Nat.add_comm]

namespace Embeds

variable {move : Nat → Nat} {inner outer : Program} {depth position close : Nat}

theorem closingFrom_next (embeds : Embeds move inner outer) (inside : position < inner.size)
    (depth : Nat) :
    outer.closingFrom depth (move position + 1) =
      outer.closingFrom depth (move (position + 1)) := by
  cases embeds.seam inside with
  | tight next => rw [next]
  | loop close ending opening found next => rw [next, closingFrom_of_matchingEnd? opening found]

theorem closingFrom (embeds : Embeds move inner outer)
    (found : inner.closingFrom depth position = some close) :
    outer.closingFrom depth (move position) = some (move close) := by
  fun_induction Program.closingFrom inner depth position with
  | case1 depth position inside bracket ih =>
    have there := embeds.carries (Array.getElem?_eq_some_iff.mpr ⟨inside, bracket⟩)
    rw [closingFrom_loopStart _ there, embeds.closingFrom_next inside, ih found]
  | case2 position inside bracket =>
    have there := embeds.carries (Array.getElem?_eq_some_iff.mpr ⟨inside, bracket⟩)
    cases found
    exact closingFrom_zero_loopEnd there
  | case3 position inside bracket depth ih =>
    have there := embeds.carries (Array.getElem?_eq_some_iff.mpr ⟨inside, bracket⟩)
    rw [closingFrom_succ_loopEnd _ there, embeds.closingFrom_next inside, ih found]
  | case4 depth position inside action bracket ih =>
    have there := embeds.carries (Array.getElem?_eq_some_iff.mpr ⟨inside, bracket⟩)
    rw [closingFrom_command _ there, embeds.closingFrom_next inside, ih found]
  | case5 => cases found

/-- The end of a loop is found at its place. -/
theorem matchingEnd? (embeds : Embeds move inner outer) (inside : position < inner.size)
    (found : inner.matchingEnd? position = some close) :
    outer.matchingEnd? (move position) = some (move close) := by
  rw [Program.matchingEnd?, embeds.closingFrom_next inside]
  exact embeds.closingFrom found

end Embeds

end Program
end RingTape
