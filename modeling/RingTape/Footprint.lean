import RingTape.Signals

namespace RingTape

/-!
# Where the pointer goes

The cells a run visits are those that its pointer rests on at some moment,
the first and the last one included.  `Program.visited` lists them in the
order of the moments, so a cell that is visited again is listed again.

A step crosses an end of the tape if it carries out a move that takes the
pointer from the first cell to the last, or from the last to the first.
-/

/-- The cell that the pointer rests on, however far the run has come. -/
def Progress.pointer (progress : Progress) : Nat :=
  progress.run.machine.tape.pointer

/-- The cells on which the pointer rests within a budget. -/
def Program.visited (program : Program) (options : Options) (tape : Tape) (console : Console)
    (signals : Signals) (budget : Nat) : List Nat :=
  (List.range (budget + 1)).map fun count =>
    (program.executeAmid options tape console signals count).pointer

/-- The next instruction is attempted and moves the pointer across an end of
the tape. -/
def Run.Crosses (run : Run) (options : Options) (program : Program) : Prop :=
  run.attempts options program = true ∧
    (program[run.machine.position]? = some (.command .moveLeft) ∧
        run.machine.tape.pointer = 0 ∨
      program[run.machine.position]? = some (.command .moveRight) ∧
        run.machine.tape.pointer + 1 = run.machine.tape.length)

instance (run : Run) (options : Options) (program : Program) :
    Decidable (run.Crosses options program) :=
  inferInstanceAs (Decidable (_ ∧ _))

end RingTape
