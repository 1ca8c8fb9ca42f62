import RingTape.Program.Balance
import RingTape.Program.Tree

namespace RingTape

/-!
# What reading a program establishes

A text is read exactly if its instructions are balanced, and a balanced
sequence of instructions is the written form of exactly one tree.  Both
facts are proved along the reader: the places of the open brackets are as
many as the loops that the rest of the text has to close, and the trees that
`Tree.gather` sets aside are as many as the brackets closed ahead of it.
-/

namespace Program

/-- Reading from the middle of a text succeeds exactly if its instructions
close the loops which are open there and no others, and it appends them. -/
theorem readFrom_eq_ok_iff {here : Position} {opened : List Position} {read program : Program}
    {characters : List Char} :
    readFrom here opened read characters = .ok program ↔
      depthAfter? opened.length (characters.filterMap Instruction.ofChar?) = some 0 ∧
        program.toList = read.toList ++ characters.filterMap Instruction.ofChar? := by
  induction characters generalizing here opened read with
  | nil =>
    cases opened with
    | nil =>
      simp only [readFrom, Except.ok.injEq, List.filterMap_nil, List.length_nil, depthAfter?,
        List.append_nil, true_and, Array.toList_inj]
      exact eq_comm
    | cons place outer =>
      simp only [readFrom, List.filterMap_nil, List.length_cons, depthAfter?, reduceCtorEq,
        Option.some.injEq, Nat.succ_ne_zero, false_and]
  | cons character rest ih =>
    cases found : Instruction.ofChar? character with
    | none =>
      simp only [readFrom, found, List.filterMap_cons_none]
      exact ih
    | some instruction =>
      have written (more : List Instruction) :
          (read.push instruction).toList ++ more = read.toList ++ instruction :: more := by
        rw [Array.toList_push, List.append_assoc, List.singleton_append]
      rw [List.filterMap_cons_some found, ← written]
      cases instruction with
      | command action =>
        simp only [readFrom, found, depthAfter?]
        exact ih
      | loopStart =>
        simp only [readFrom, found, depthAfter?]
        exact ih
      | loopEnd =>
        cases opened with
        | nil => simp only [readFrom, found, List.length_nil, depthAfter?, reduceCtorEq, false_and]
        | cons place outer =>
          simp only [readFrom, found, List.length_cons, depthAfter?]
          exact ih

/-- A text is read exactly if its instructions are balanced, and they are
what is read. -/
theorem parse_eq_ok_iff {source : String} {program : Program} :
    parse source = .ok program ↔
      Balanced (source.toList.filterMap Instruction.ofChar?) ∧
        program.toList = source.toList.filterMap Instruction.ofChar? := by
  rw [parse, readFrom_eq_ok_iff, balanced_iff_depthAfter?]
  rfl

/-- Every program that was read is balanced. -/
theorem balanced_of_parse {source : String} {program : Program}
    (read : parse source = .ok program) : Balanced program.toList := by
  rcases parse_eq_ok_iff.mp read with ⟨balanced, written⟩
  rw [written]
  exact balanced

end Program

namespace Tree

open Program (depthAfter?)

/-- Gathering succeeds on every sequence that closes `depth` loops more than
it opens, and sets one tree aside for each of them. -/
theorem exists_gather {depth : Nat} {instructions : List Instruction}
    (closing : depthAfter? depth instructions = some 0) :
    ∃ tree trees, gather instructions = some (tree, trees) ∧ trees.length = depth := by
  induction instructions generalizing depth with
  | nil =>
    have zero : depth = 0 := by simpa only [depthAfter?, Option.some.injEq] using closing
    exact ⟨done, [], rfl, zero.symm⟩
  | cons instruction rest ih =>
    cases instruction with
    | command action =>
      rcases ih closing with ⟨tree, trees, gathered, count⟩
      exact ⟨command action tree, trees, by simp only [gather, gathered, Option.map_some], count⟩
    | loopStart =>
      rcases ih closing with ⟨body, trees, gathered, count⟩
      cases trees with
      | nil => exact absurd count (Nat.zero_ne_add_one depth)
      | cons after around =>
        exact ⟨loop body after, around, by simp only [gather, gathered],
          Nat.succ.inj count⟩
    | loopEnd =>
      cases depth with
      | zero => simp only [depthAfter?, reduceCtorEq] at closing
      | succ depth =>
        rcases ih closing with ⟨tree, trees, gathered, count⟩
        exact ⟨done, tree :: trees, by simp only [gather, gathered, Option.map_some],
          congrArg Nat.succ count⟩

/-- Gathering keeps every instruction: the trees that were set aside follow
the first one, each behind the bracket that closes a loop around it. -/
theorem instructions_of_gather {instructions : List Instruction} {tree : Tree}
    {trees : List Tree} (gathered : gather instructions = some (tree, trees)) :
    instructions =
      tree.instructions ++ trees.flatMap fun outer => .loopEnd :: outer.instructions := by
  induction instructions generalizing tree trees with
  | nil =>
    have parts : done = tree ∧ [] = trees := by
      simpa only [gather, Option.some.injEq, Prod.mk.injEq] using gathered
    rw [← parts.1, ← parts.2]
    rfl
  | cons instruction rest ih =>
    cases instruction with
    | command action =>
      simp only [gather, Option.map_eq_some_iff, Prod.exists, Prod.mk.injEq] at gathered
      rcases gathered with ⟨next, around, found, rfl, rfl⟩
      rw [ih found]
      rfl
    | loopStart =>
      simp only [gather] at gathered
      split at gathered
      · next body after around found =>
        simp only [Option.some.injEq, Prod.mk.injEq] at gathered
        rcases gathered with ⟨rfl, rfl⟩
        rw [ih found]
        simp only [Tree.instructions, List.flatMap_cons, List.cons_append, List.append_assoc]
      · cases gathered
    | loopEnd =>
      simp only [gather, Option.map_eq_some_iff, Prod.exists, Prod.mk.injEq] at gathered
      rcases gathered with ⟨next, around, found, rfl, rfl⟩
      rw [ih found]
      rfl

/-- A balanced sequence of instructions is the written form of a tree. -/
theorem exists_ofInstructions? {instructions : List Instruction}
    (balanced : Program.Balanced instructions) :
    ∃ tree, ofInstructions? instructions = some tree ∧ tree.instructions = instructions := by
  rcases exists_gather (Program.balanced_iff_depthAfter?.mp balanced) with
    ⟨tree, trees, gathered, count⟩
  cases List.eq_nil_of_length_eq_zero count
  refine ⟨tree, by simp only [ofInstructions?, gathered], ?_⟩
  rw [instructions_of_gather gathered, List.flatMap_nil, List.append_nil]

end Tree
end RingTape
