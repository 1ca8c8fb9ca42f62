import RingTape.Program.Tree
import RingTape.Run

namespace RingTape

/-!
# Structured execution

The meaning of a tree, given without jumps and without a record of open
loops: a loop runs its body as long as the current cell is not zero.  The
places of the commands are counted along the way, because errors name them;
they have no other effect.

The evaluator shares with a run only what a single command does to the tape
and to the console.  It needs fuel, since loops need not end; an answer that
is found with some fuel is found with any more.
-/

/-- What a tree acts on. -/
structure Scene where
  tape : Tape
  console : Console

namespace Tree

/-- Carry out one command that stands at a position. -/
def act (options : Options) (position : Nat) (action : Command) (scene : Scene) :
    Except RunError Unit × Scene :=
  match scene.console.supply options.mode options.prompt (.command action) scene.tape.current with
  | (.error .invalidInput, console) =>
    (.error (.invalidInput position options.mode), ⟨scene.tape, console⟩)
  | (.error (.device failure), console) =>
    (.error (.device position failure), ⟨scene.tape, console⟩)
  | (.ok supplied, console) => (.ok (), ⟨scene.tape.apply action supplied, console⟩)

/-- Evaluate a tree whose first instruction stands at a position.  Nothing
is answered if the fuel does not suffice. -/
def eval (options : Options) : Nat → Tree → Nat → Scene → Option (Except RunError Unit × Scene)
  | 0, _, _, _ => none
  | _ + 1, done, _, scene => some (.ok (), scene)
  | fuel + 1, command action rest, position, scene =>
    match act options position action scene with
    | (.error error, scene) => some (.error error, scene)
    | (.ok (), scene) => eval options fuel rest (position + 1) scene
  | fuel + 1, loop body rest, position, scene =>
    if scene.tape.current = 0 then
      eval options fuel rest (position + body.size + 2) scene
    else
      match eval options fuel body (position + 1) scene with
      | none => none
      | some (.error error, scene) => some (.error error, scene)
      | some (.ok (), scene) => eval options fuel (loop body rest) position scene

/-- Evaluate a whole tree on a tape and a console, and conclude. -/
def execute (options : Options) (tree : Tree) (tape : Tape) (console : Console) (fuel : Nat) :
    Option (Ending × Scene) :=
  match eval options fuel tree 0 ⟨tape, { console with emitted := 0 }⟩ with
  | none => none
  | some (.error error, scene) => some (.failed error, scene)
  | some (.ok (), scene) =>
    match scene.console.conclude with
    | (.error failure, console) =>
      some (.failed (.device tree.size failure), ⟨scene.tape, console⟩)
    | (.ok (), console) => some (.completed, ⟨scene.tape, console⟩)

end Tree
end RingTape
