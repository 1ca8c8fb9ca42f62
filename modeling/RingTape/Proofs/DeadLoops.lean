import RingTape.Proofs.Parsing
import RingTape.Proofs.Placement
import RingTape.Proofs.Relocation

namespace RingTape
namespace Program

/-!
# Loops that are never entered

A loop is left with a zero under the pointer, whether it was run through or
passed by.  So a loop that directly follows it is passed by whenever control
comes there, and since control comes there from nowhere else, it is never
entered.  Taking it out changes nothing but the positions behind it.

The two loops may stand anywhere.  What comes before them and what comes
after them need not be balanced apart, so loops around both may jump over
them in either direction.
-/

/-- A sequence of instructions as the body of a loop. -/
def enclose (body : List Instruction) : List Instruction :=
  .loopStart :: (body ++ [.loopEnd])

/-- The program with something between two stretches of instructions. -/
def fill (before after inner : List Instruction) : Program :=
  (before ++ inner ++ after).toArray

/-- Where a position gets when so much is inserted at the hole. -/
def widen (hole width position : Nat) : Nat :=
  if position < hole then position else position + width

theorem length_enclose (body : List Instruction) : (enclose body).length = body.length + 2 := by
  simp [enclose]

theorem Balanced.enclose {body : List Instruction} (balanced : Balanced body) :
    Balanced (enclose body) := by
  rw [balanced_iff_depthAfter?, Program.enclose, depthAfter?, depthAfter?_append,
    depthAfter?_of_balanced balanced]
  rfl

section Filling

variable (before after inner : List Instruction) {position : Nat}

theorem getElem?_fill_before (inside : position < before.length) :
    (fill before after inner)[position]? = before[position]? := by
  rw [fill, List.getElem?_toArray, List.append_assoc, List.getElem?_append_left inside]

theorem getElem?_fill_inner (inside : position < inner.length) :
    (fill before after inner)[before.length + position]? = inner[position]? := by
  rw [fill, List.getElem?_toArray, List.append_assoc,
    List.getElem?_append_right (Nat.le_add_right _ _), Nat.add_sub_cancel_left,
    List.getElem?_append_left inside]

theorem getElem?_fill_after :
    (fill before after inner)[before.length + inner.length + position]? = after[position]? := by
  rw [fill, List.getElem?_toArray, ← List.length_append,
    List.getElem?_append_right (Nat.le_add_right _ _), Nat.add_sub_cancel_left]

theorem fill_append (more : List Instruction) :
    fill before after (inner ++ more) = fill (before ++ inner) after more := by
  rw [fill, fill, List.append_assoc before inner more]

theorem fill_eq_nil : fill before after inner = fill (before ++ inner) after [] := by
  rw [← fill_append, List.append_nil]

end Filling

section Inserting

variable {front dead : List Instruction} (after : List Instruction) {position : Nat}

theorem widen_of_lt {hole width : Nat} (inside : position < hole) :
    widen hole width position = position := if_pos inside

theorem widen_of_le {hole width : Nat} (behind : hole ≤ position) :
    widen hole width position = position + width := if_neg (Nat.not_lt_of_le behind)

/-- The inserted loop ends where it should. -/
theorem matchingEnd?_fill (front : List Instruction) (unreached : Balanced dead) :
    (fill front after (enclose dead)).matchingEnd? front.length =
      some (front.length + dead.length + 1) := by
  rcases Tree.exists_ofInstructions? unreached with ⟨tree, _, written⟩
  have placed : (Tree.loop tree .done).Placed (fill front after (enclose dead)) front.length := by
    rw [Tree.Placed, Tree.instructions, Tree.instructions, written, fill, List.append_assoc,
      List.drop_left]
    exact List.prefix_append _ _
  rw [Tree.matchingEnd?_of_placed placed, ← Tree.length_instructions, written]

theorem getElem?_widen :
    (fill front after (enclose dead))[widen front.length (dead.length + 2) position]? =
      (fill front after [])[position]? := by
  by_cases inside : position < front.length
  · rw [widen_of_lt inside, getElem?_fill_before front after _ inside,
      getElem?_fill_before front after _ inside]
  · have parts : position = front.length + ([] : List Instruction).length +
        (position - front.length) := by
      rw [List.length_nil]
      omega
    have there : position + (dead.length + 2) =
        front.length + (enclose dead).length + (position - front.length) := by
      rw [length_enclose]
      omega
    have here := @getElem?_fill_after front after [] (position - front.length)
    rw [← parts] at here
    rw [widen_of_le (Nat.le_of_not_lt inside), there, getElem?_fill_after, here]

/-- Behind the end of a loop another loop can be inserted. -/
theorem embeds_fill (closed : front[front.length - 1]? = some .loopEnd)
    (unreached : Balanced dead) :
    Embeds (widen front.length (dead.length + 2)) (fill front after [])
      (fill front after (enclose dead)) where
  carries here := (getElem?_widen after).trans here
  seam := by
    intro position _
    by_cases hole : position + 1 = front.length
    · have inside : position < front.length := by omega
      have last : position = front.length - 1 := by omega
      refine .loop (front.length + dead.length + 1) ?_ ?_ ?_ ?_
      · rw [getElem?_fill_before front after _ inside, last]
        exact closed
      · rw [widen_of_lt inside, hole]
        exact getElem?_fill_inner front after (enclose dead) (Nat.zero_lt_succ _)
      · rw [widen_of_lt inside, hole]
        exact matchingEnd?_fill after front unreached
      · rw [hole, widen_of_le (Nat.le_refl _)]
        omega
    · refine .tight ?_
      simp only [widen]
      split <;> split <;> omega

end Inserting

/-- A loop right behind another loop might as well not be there.  Whatever
stands before and after, as long as it is balanced together, the run with
the second loop and the run without it end alike or both go on forever.  The
tape and the whole console are the same in the end, and so is the ending,
except that an error behind the second loop has its position further on by
the length of that loop. -/
theorem endsIn_fill_iff {before after body dead : List Instruction}
    (around : Balanced (before ++ after)) (inside : Balanced body) (unreached : Balanced dead)
    {options : Options} (unrestricted : options.Unrestricted) {console : Console}
    (calm : console.Unstoppable) (tape : Tape) :
    (∀ how scene,
      (fill before after (enclose body ++ enclose dead)).EndsIn options tape console how scene ↔
        ∃ how',
          how = how'.relocate (widen (before.length + body.length + 2) (dead.length + 2)) ∧
            (fill before after (enclose body)).EndsIn options tape console how' scene) ∧
    ((fill before after (enclose body ++ enclose dead)).RunsForever options tape console ↔
      (fill before after (enclose body)).RunsForever options tape console) := by
  have balanced : Balanced (fill before after (enclose body)).toList :=
    around.insert inside.enclose
  have length : (before ++ enclose body).length = before.length + body.length + 2 := by
    rw [List.length_append, length_enclose]
    rfl
  have closed : (before ++ enclose body)[(before ++ enclose body).length - 1]? =
      some .loopEnd := by
    simp [enclose]
  rw [fill_eq_nil] at balanced
  rw [fill_append, fill_eq_nil before after (enclose body), ← length]
  have embeds := embeds_fill after closed unreached
  have start : widen (before ++ enclose body).length (dead.length + 2) 0 = 0 := by
    refine widen_of_lt ?_
    rw [length]
    omega
  have past : (fill (before ++ enclose body) after (enclose dead))[
      widen (before ++ enclose body).length (dead.length + 2)
        (fill (before ++ enclose body) after []).size]? = none := by
    rw [getElem?_widen]
    exact Array.getElem?_eq_none (Nat.le_refl _)
  exact ⟨fun how scene => endsIn_iff_of_embeds embeds balanced unrestricted calm start past,
    runsForever_iff_of_embeds embeds balanced unrestricted calm start past⟩

/-- Two loops inside a third one, of which the second would print, and a
failing read behind them. -/
theorem failing_read_behind_dead_loop :
    ∃ before after body dead scene,
      fill before after (enclose body ++ enclose dead) = #[.command .increment, .loopStart,
        .loopStart, .command .decrement, .loopEnd, .loopStart, .command .output, .loopEnd,
        .loopEnd, .command .input] ∧
      Balanced (before ++ after) ∧ Balanced body ∧ Balanced dead ∧
      Options.Unrestricted {} ∧ Console.Unstoppable {} ∧
      (fill before after (enclose body)).EndsIn {} ⟨#[0], 0, by decide⟩ {}
        (.failed (.invalidInput 6 .character)) scene ∧
      (fill before after (enclose body ++ enclose dead)).EndsIn {} ⟨#[0], 0, by decide⟩ {}
        (.failed (.invalidInput 9 .character)) scene ∧
      scene.console.output.accepted = #[] := by
  have around : Balanced ([.command .increment, .loopStart] ++ [.loopEnd, .command .input]) := by
    decide
  have inside : Balanced [.command .decrement] := by decide
  have unreached : Balanced [.command .output] := by decide
  have unrestricted : Options.Unrestricted {} := ⟨rfl, rfl⟩
  have calm : Console.Unstoppable {} := ⟨rfl, rfl⟩
  have short : (fill [.command .increment, .loopStart] [.loopEnd, .command .input]
      (enclose [.command .decrement])).EndsIn {} ⟨#[0], 0, by decide⟩ {}
      (.failed (.invalidInput 6 .character))
      ⟨⟨#[0], 0, by decide⟩, { output := { flushes := 1 } }⟩ :=
    ⟨7, _, rfl, rfl, rfl⟩
  have long := ((endsIn_fill_iff around inside unreached unrestricted calm _).1 _ _).mpr
    ⟨_, rfl, short⟩
  exact ⟨_, _, _, _, _, rfl, around, inside, unreached, unrestricted, calm, short, long, rfl⟩

end Program
end RingTape
