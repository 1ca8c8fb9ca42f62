import RingTape.Program

namespace RingTape

/-!
# Programs as trees

A program whose brackets match is a sequence of commands and loops, and each
loop holds such a sequence again.  A `Tree` is this structure with nothing
left of the brackets.  Writing a tree out as instructions is a function.
Reading one back goes from the last instruction to the first: a closing
bracket begins an empty body in front of what was read so far, and an
opening one puts the finished body before what follows its loop.
-/

/-- A sequence of commands and loops. -/
inductive Tree where
  | done
  | command (action : Command) (rest : Tree)
  | loop (body rest : Tree)
  deriving DecidableEq, Repr

namespace Tree

/-- The instructions that a tree stands for. -/
def instructions : Tree → List Instruction
  | done => []
  | command action rest => .command action :: rest.instructions
  | loop body rest => .loopStart :: (body.instructions ++ .loopEnd :: rest.instructions)

/-- The number of instructions that a tree stands for. -/
def size : Tree → Nat
  | done => 0
  | command _ rest => rest.size + 1
  | loop body rest => body.size + rest.size + 2

/-- The tree of the sequence that these instructions begin with, and the
trees of the sequences around it, innermost first.  There are as many of the
latter as brackets which are closed here and were opened before. -/
def gather : List Instruction → Option (Tree × List Tree)
  | [] => some (done, [])
  | .command action :: rest =>
    (gather rest).map fun trees => (command action trees.1, trees.2)
  | .loopEnd :: rest =>
    (gather rest).map fun trees => (done, trees.1 :: trees.2)
  | .loopStart :: rest =>
    match gather rest with
    | some (body, after :: around) => some (loop body after, around)
    | _ => none

/-- The tree that a sequence of instructions stands for. -/
def ofInstructions? (instructions : List Instruction) : Option Tree :=
  match gather instructions with
  | some (tree, []) => some tree
  | _ => none

theorem length_instructions (tree : Tree) : tree.instructions.length = tree.size := by
  induction tree with
  | done => rfl
  | command action rest ih => simp [instructions, size, ih]
  | loop body rest ihBody ihRest => simp [instructions, size, ihBody, ihRest]; omega

theorem gather_instructions_append (tree : Tree) (rest : List Instruction) (trees : List Tree)
    (gathered : gather rest = some (done, trees)) :
    gather (tree.instructions ++ rest) = some (tree, trees) := by
  induction tree generalizing rest trees with
  | done => simpa [instructions] using gathered
  | command action next ih => simp [instructions, gather, ih rest trees gathered]
  | loop body next ihBody ihNext =>
    have outer := ihNext rest trees gathered
    have inner := ihBody (.loopEnd :: (next.instructions ++ rest)) (next :: trees)
      (by simp [gather, outer])
    simp [instructions, gather, inner]

/-- Reading gives back every tree that was written. -/
theorem ofInstructions?_instructions (tree : Tree) :
    ofInstructions? tree.instructions = some tree := by
  have gathered := gather_instructions_append tree [] [] rfl
  rw [List.append_nil] at gathered
  simp [ofInstructions?, gathered]

end Tree
end RingTape
