import RingTape.Program

namespace RingTape
namespace Program

/-!
# Balanced sequences of instructions

Balance is said by counting: no beginning of the sequence closes more loops
than it opens, and the whole sequence opens as many as it closes.  The
definition knows neither a stack nor a search.  `depthAfter?` is the
one-pass check that goes with it: the number of loops left open, or nothing
as soon as a closing bracket has nothing to close.
-/

/-- How many loops a sequence opens. -/
def opens (instructions : List Instruction) : Nat :=
  instructions.count .loopStart

/-- How many loops a sequence closes. -/
def closes (instructions : List Instruction) : Nat :=
  instructions.count .loopEnd

/-- Every closing bracket has an opening one, and the other way round. -/
def Balanced (instructions : List Instruction) : Prop :=
  (∀ length, closes (instructions.take length) ≤ opens (instructions.take length)) ∧
    opens instructions = closes instructions

/-- The loops that are open after a sequence which began inside `depth`
loops. -/
def depthAfter? : Nat → List Instruction → Option Nat
  | depth, [] => some depth
  | depth, .loopStart :: rest => depthAfter? (depth + 1) rest
  | 0, .loopEnd :: _ => none
  | depth + 1, .loopEnd :: rest => depthAfter? depth rest
  | depth, .command _ :: rest => depthAfter? depth rest

/-- The one-pass check answers exactly when no beginning closes too much,
and then it answers with the difference of the two counts. -/
theorem depthAfter?_eq_some_iff {depth final : Nat} {instructions : List Instruction} :
    depthAfter? depth instructions = some final ↔
      (∀ length, closes (instructions.take length) ≤ depth + opens (instructions.take length)) ∧
        depth + opens instructions = final + closes instructions := by
  induction instructions generalizing depth with
  | nil => simp [depthAfter?, opens, closes]
  | cons instruction rest ih =>
    have shift (bound : Nat → Prop) :
        (∀ length, bound length) ↔ bound 0 ∧ ∀ length, bound (length + 1) :=
      ⟨fun all => ⟨all 0, fun length => all (length + 1)⟩,
        fun both length => match length with
          | 0 => both.1
          | length + 1 => both.2 length⟩
    rw [shift]
    rcases instruction with action | _ | _
    · simp [depthAfter?, ih, opens, closes]
    · simp [depthAfter?, ih, opens, closes, Nat.add_assoc, Nat.add_comm 1]
    · cases depth with
      | zero =>
        simp only [depthAfter?, closes, opens, reduceCtorEq, false_iff]
        rintro ⟨⟨_, step⟩, _⟩
        simpa using step 0
      | succ depth =>
        simp only [depthAfter?, ih, opens, closes, List.take_succ_cons, List.count_cons,
          List.take_zero, List.count_nil]
        refine and_congr ?_ (by simp; omega)
        simp only [Nat.zero_le, true_and]
        exact forall_congr' fun length => by simp; omega

theorem balanced_iff_depthAfter? {instructions : List Instruction} :
    Balanced instructions ↔ depthAfter? 0 instructions = some 0 := by
  simp [Balanced, depthAfter?_eq_some_iff]

instance (instructions : List Instruction) : Decidable (Balanced instructions) :=
  decidable_of_iff _ balanced_iff_depthAfter?.symm

theorem depthAfter?_append (depth : Nat) (first second : List Instruction) :
    depthAfter? depth (first ++ second) =
      (depthAfter? depth first).bind (depthAfter? · second) := by
  fun_induction depthAfter? depth first with
  | case1 depth => rfl
  | case2 depth rest ih => exact ih
  | case3 rest => rfl
  | case4 depth rest ih => exact ih
  | case5 depth action rest ih => exact ih

/-- A balanced sequence leaves as many loops open as were open before. -/
theorem depthAfter?_of_balanced {instructions : List Instruction}
    (balanced : Balanced instructions) (depth : Nat) :
    depthAfter? depth instructions = some depth := by
  rw [depthAfter?_eq_some_iff, balanced.2]
  exact ⟨fun length => Nat.le_add_left_of_le (balanced.1 length), rfl⟩

theorem Balanced.append {first second : List Instruction} (firstBalanced : Balanced first)
    (secondBalanced : Balanced second) : Balanced (first ++ second) := by
  rw [balanced_iff_depthAfter?, depthAfter?_append, depthAfter?_of_balanced firstBalanced]
  exact depthAfter?_of_balanced secondBalanced 0

/-- A balanced sequence fits in everywhere. -/
theorem Balanced.insert {before inner after : List Instruction}
    (around : Balanced (before ++ after)) (balanced : Balanced inner) :
    Balanced (before ++ inner ++ after) := by
  rw [balanced_iff_depthAfter?, depthAfter?_append] at around
  rw [balanced_iff_depthAfter?, depthAfter?_append, depthAfter?_append]
  cases opened : depthAfter? 0 before with
  | none =>
    rw [opened] at around
    cases around
  | some depth =>
    rw [opened] at around
    rw [Option.bind_some, depthAfter?_of_balanced balanced]
    exact around

end Program
end RingTape
