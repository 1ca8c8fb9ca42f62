import RingTape.Proofs.Advance
import RingTape.Signals

namespace RingTape

/-!
# Transcripts

A run writes its output in passages.  A traced run begins with the header of
its table.  After that each step has one passage, which may be empty: the
row of an instruction in a traced run, the text of a cell in a real run, and
the completion notice once the instructions are used up.

A passage is what a step has to write.  It is known before the sink is asked
and says on whose account the bytes are written, which is where a failing
write is reported.  Whether the sink accepts a passage is no concern of the
transcript.
-/

/-- On whose account something is written. -/
inductive Author where
  | header
  | instruction (position : Nat)
  | notice
  deriving DecidableEq, Repr

/-- The position at which a failing write is reported. -/
def Author.position (program : Program) : Author → Nat
  | header => 0
  | instruction position => position
  | notice => program.size

/-- A text that is written at one go, and its author. -/
structure Passage where
  author : Author
  text : String
  deriving DecidableEq, Repr

namespace Passage

/-- The bytes of a passage. -/
def bytes (passage : Passage) : List UInt8 :=
  Text.encode passage.text

/-- The author of each of its bytes. -/
def authors (passage : Passage) : List Author :=
  List.replicate passage.bytes.length passage.author

end Passage

/-- What output writes for a cell, its separator included. -/
def Console.emission (console : Console) (mode : Mode) (cell : UInt8) : String :=
  let separator :=
    match mode with
    | .character => ""
    | .numeric => if console.emitted = 0 then "" else " "
  separator ++ mode.render cell

namespace Run

/-- What an instruction has to write. -/
def instructionText (run : Run) (options : Options) (program : Program)
    (instruction : Instruction) : String :=
  if options.traced then
    match run.machine.step program instruction 0 with
    | .ok machine => run.rowText options instruction machine
    | .error _ => ""
  else if instruction = .command .output then
    run.console.emission options.mode run.machine.tape.current
  else
    ""

/-- What the next step has to write.  An instruction that is not attempted
has nothing to write. -/
def passage (run : Run) (options : Options) (program : Program) : Passage :=
  match program[run.machine.position]? with
  | none => ⟨.notice, Console.completionNotice⟩
  | some instruction =>
    ⟨.instruction run.machine.position,
      if run.attempts options program then run.instructionText options program instruction else ""⟩

end Run

/-- The passage of the next step, if there is a next step. -/
def Progress.passages (options : Options) (program : Program) (signals : Signals) :
    Progress → List Passage
  | running run => [(run.signalled signals).passage options program]
  | ended _ _ | stuck _ _ => []

/-- Everything that a run has to write within a budget. -/
def Program.transcript (program : Program) (options : Options) (tape : Tape)
    (console : Console) (signals : Signals) : Nat → List Passage
  | 0 => if options.traced then [⟨.header, Trace.header⟩] else []
  | budget + 1 =>
    transcript program options tape console signals budget ++
      (program.executeAmid options tape console signals budget).passages options program signals

namespace Run

variable {run : Run} {options : Options} {program : Program} {instruction : Instruction}

theorem passage_of_none (past : program[run.machine.position]? = none) :
    run.passage options program = ⟨.notice, Console.completionNotice⟩ := by
  simp only [passage, past]

theorem passage_of_attempts (here : program[run.machine.position]? = some instruction)
    (tried : run.attempts options program = true) :
    run.passage options program =
      ⟨.instruction run.machine.position, run.instructionText options program instruction⟩ := by
  simp only [passage, here, tried, if_true]

theorem passage_of_idle (here : program[run.machine.position]? = some instruction)
    (idle : run.attempts options program = false) :
    run.passage options program = ⟨.instruction run.machine.position, ""⟩ := by
  simp only [passage, here, idle, Bool.false_eq_true, if_false]

theorem instructionText_of_stepped {machine : Machine} (traced : options.traced = true)
    (stepped : run.machine.step program instruction 0 = .ok machine) :
    run.instructionText options program instruction = run.rowText options instruction machine := by
  simp only [instructionText, traced, if_true, stepped]

theorem instructionText_of_stuck {reason : Stuck} (traced : options.traced = true)
    (stuck : run.machine.step program instruction 0 = .error reason) :
    run.instructionText options program instruction = "" := by
  simp only [instructionText, traced, if_true, stuck]

theorem instructionText_of_output (untraced : options.traced = false) :
    run.instructionText options program (.command .output) =
      run.console.emission options.mode run.machine.tape.current := by
  simp only [instructionText, untraced, Bool.false_eq_true, if_false, if_true]

theorem instructionText_of_quiet (untraced : options.traced = false)
    (quiet : instruction ≠ .command .output) :
    run.instructionText options program instruction = "" := by
  simp only [instructionText, untraced, Bool.false_eq_true, if_false, if_neg quiet]

end Run

end RingTape
