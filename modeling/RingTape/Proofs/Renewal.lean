import RingTape.Proofs.Lockstep
import RingTape.Structured

namespace RingTape

/-!
# Runs on a used console

A console outlives the runs that take turns on it, and an earlier run may
have been broken off anywhere.  What is left for the next one is the input
that nobody read, what the sink still takes, and the stop flag.
`Console.renewed` is a console that nobody has used and that offers just
this.  `Console.resumed` goes the other way: it puts the output, the prompts
and the flushes of the past in front of what happened on such a console.

A run on the used console is the run on the renewed one, resumed
(`Program.executeAmid_renewed`).  Nothing else of the past reaches it, in
particular not the number of cells that were written before.
-/

namespace Sink

/-- An unused sink that takes and flushes as much as this one still does. -/
def renewed (sink : Sink) : Sink where
  capacity := sink.capacity.map (· - sink.accepted.size)
  flushesLeft := sink.flushesLeft

/-- A sink with the past of another one in front of its own. -/
def resumed (past sink : Sink) : Sink where
  accepted := past.accepted ++ sink.accepted
  capacity := past.capacity
  flushesLeft := sink.flushesLeft
  flushes := past.flushes + sink.flushes
  visible := if sink.flushes = 0 then past.visible else past.accepted.size + sink.visible

theorem resumed_renewed (sink : Sink) : sink.resumed sink.renewed = sink := by
  simp [resumed, renewed]

theorem flush_resumed (past sink : Sink) :
    (past.resumed sink).flush = sink.flush.map id past.resumed := by
  rcases sink with ⟨accepted, capacity, _ | _ | left, flushes, visible⟩
  · simp [flush, resumed, Nat.add_assoc]
  · rfl
  · simp [flush, resumed, Nat.add_assoc]

/-- The room that is left does not depend on who took the rest. -/
theorem room_resumed (past : Sink) (held wanted : Nat) :
    room past.capacity (past.accepted.size + held) wanted =
      room past.renewed.capacity held wanted := by
  rcases past with ⟨accepted, _ | capacity, flushesLeft, flushes, visible⟩
  · rfl
  · simp only [room, renewed, Option.map_some, Nat.sub_sub]

theorem write_resumed {past sink : Sink} (alike : sink.capacity = past.renewed.capacity)
    (content : List UInt8) :
    (past.resumed sink).write content = (sink.write content).map id past.resumed := by
  have same := past.room_resumed sink.accepted.size content.length
  rw [← alike, ← Array.size_append] at same
  have whole (more : List UInt8) :
      past.accepted ++ sink.accepted ++ more = past.accepted ++ (sink.accepted ++ more) := by
    apply Array.toList_inj.mp
    simp only [Array.toList_append, Array.toList_appendList, List.append_assoc]
  rcases sink with ⟨accepted, capacity, flushesLeft, flushes, visible⟩
  simp only [write, resumed, same, Prod.map, id_eq, whole]
  rfl

end Sink

namespace Console

/-- An unused console that offers what this one still offers. -/
def renewed (console : Console) : Console where
  input := console.input
  output := console.output.renewed
  stopAfter := console.stopAfter.map (· - console.output.accepted.size)
  stopped := console.stopped

/-- A console with the past of another one in front of its own. -/
def resumed (past console : Console) : Console where
  input := console.input
  output := past.output.resumed console.output
  prompts := past.prompts + console.prompts
  emitted := console.emitted
  stopAfter := past.stopAfter
  stopped := console.stopped

/-- A console takes and raises as much as what was left of another one. -/
structure Succeeds (past console : Console) : Prop where
  capacity : console.output.capacity = past.renewed.output.capacity
  stopAfter : console.stopAfter = past.renewed.stopAfter

theorem resumed_renewed (console : Console) :
    console.resumed console.renewed = { console with emitted := 0 } := by
  rcases console with ⟨input, output, prompts, emitted, stopAfter, stopped⟩
  simp only [resumed, renewed, Sink.resumed_renewed, Nat.add_zero]

theorem slight_resumed (past : Console) : Slight past.resumed where
  emitted _ := rfl
  recount _ _ := rfl
  flush console := by
    have same := Sink.flush_resumed past.output console.output
    simp only [flush, resumed, same, Prod.map, id_eq]
  ask _ prompt := by
    cases prompt <;> rfl
  receive _ _ := rfl

/-- The flag goes up by the same write. -/
theorem raisesStop_resumed (past : Console) (count total : Nat) :
    raisesStop past.stopAfter count (past.output.accepted.size + total) =
      raisesStop past.renewed.stopAfter count total := by
  rcases past with ⟨input, output, prompts, emitted, _ | threshold, stopped⟩
  · rfl
  · simp only [raisesStop, renewed, Option.map_some, Nat.sub_le_iff_le_add']

theorem write_resumed {past console : Console} (succeeds : past.Succeeds console)
    (text : String) :
    (past.resumed console).write text = (console.write text).map id past.resumed := by
  have written := Sink.write_resumed succeeds.capacity (Text.encode text)
  have raised := past.raisesStop_resumed (console.output.write (Text.encode text)).1
    (console.output.write (Text.encode text)).2.accepted.size
  rw [← succeeds.stopAfter, ← Array.size_append] at raised
  have closed (console : Console) : console.write text =
      (if (console.output.write (Text.encode text)).1 = (Text.encode text).length then .ok ()
        else .error .sinkFull,
        { console with
          output := (console.output.write (Text.encode text)).2
          stopped := console.stopped ||
            raisesStop console.stopAfter (console.output.write (Text.encode text)).1
              (console.output.write (Text.encode text)).2.accepted.size }) := rfl
  have sink : (past.resumed console).output = past.output.resumed console.output := rfl
  rw [closed, closed, sink, written]
  simp only [Prod.map, id_eq, resumed]
  rw [← raised]
  rfl

theorem succeeds_renewed (past : Console) : past.Succeeds past.renewed :=
  ⟨rfl, rfl⟩

/-- A run changes neither what a sink takes in total nor what raises the
flag. -/
theorem law_succeeds (past : Console) :
    Law fun before after => past.Succeeds before → past.Succeeds after where
  refl _ := id
  trans first second := second ∘ first
  recount _ _ succeeds := ⟨succeeds.capacity, succeeds.stopAfter⟩
  write _ _ succeeds := ⟨succeeds.capacity, succeeds.stopAfter⟩
  flush console succeeds :=
    ⟨(Sink.capacity_flush console.output).trans succeeds.capacity, succeeds.stopAfter⟩
  ask _ prompt succeeds := by
    cases prompt <;> exact ⟨succeeds.capacity, succeeds.stopAfter⟩
  receive _ _ succeeds := ⟨succeeds.capacity, succeeds.stopAfter⟩

/-- What is left of a resumed console is what is left of the later one. -/
theorem renewed_resumed {past console : Console} (succeeds : past.Succeeds console) :
    (past.resumed console).renewed = console.renewed := by
  have capacity : past.output.capacity.map (· - (past.resumed console).output.accepted.size) =
      console.output.capacity.map (· - console.output.accepted.size) := by
    rw [succeeds.capacity]
    simp only [resumed, Sink.resumed, Array.size_append, renewed, Sink.renewed, Option.map_map,
      Function.comp_def, Nat.sub_sub]
  have stopAfter : past.stopAfter.map (· - (past.resumed console).output.accepted.size) =
      console.stopAfter.map (· - console.output.accepted.size) := by
    rw [succeeds.stopAfter]
    simp only [resumed, Sink.resumed, Array.size_append, renewed, Option.map_map,
      Function.comp_def, Nat.sub_sub]
  rw [renewed, renewed, Sink.renewed, Sink.renewed, ← capacity, ← stopAfter]
  rfl

end Console

namespace Program

open Console (slight_resumed write_resumed)
open Progress (running)

variable {program : Program} {options : Options} {tape : Tape} {signals : Signals}

theorem succeeds_executeAmid (program : Program) (options : Options) (tape : Tape)
    (past : Console) (signals : Signals) (budget : Nat) :
    past.Succeeds
      (program.executeAmid options tape past.renewed signals budget).run.console := by
  have law := past.law_succeeds
  have begun := Run.keeps_begin law.toOutputLaw options tape past.renewed past.succeeds_renewed
  exact Progress.keeps_iterateAmid law.toOutputLaw (fun _ => law) signals
    (fun _ succeeds => ⟨succeeds.capacity, succeeds.stopAfter⟩) program budget _ begun

theorem begin_renewed (options : Options) (tape : Tape) (past : Console) :
    Run.begin options tape past =
      (Run.begin options tape past.renewed).onConsole past.resumed := by
  have fresh : past.Succeeds { past.renewed with emitted := 0 } := past.succeeds_renewed
  rw [← Run.begin_of_opening past.slight_resumed (write_resumed fresh _), past.resumed_renewed]
  rfl

/-- A run on a used console is the run on the renewed one, with the past put
in front. -/
theorem executeAmid_renewed (program : Program) (options : Options) (tape : Tape)
    (past : Console) (signals : Signals) (budget : Nat) :
    program.executeAmid options tape past signals budget =
      (program.executeAmid options tape past.renewed signals budget).onConsole past.resumed := by
  have recounted : program.executeAmid options tape past signals budget =
      program.executeAmid options tape (past.resumed past.renewed) signals budget := by
    rw [past.resumed_renewed]
    rfl
  rw [recounted]
  apply executeAmid_onConsole
  · rw [past.resumed_renewed]
    exact begin_renewed options tape past
  · intro count run _ goes
    have succeeds := succeeds_executeAmid program options tape past signals count
    rw [goes] at succeeds
    have signalled : past.Succeeds (run.signalled signals).console :=
      ⟨succeeds.capacity, succeeds.stopAfter⟩
    exact Run.advance_of_passes (Run.passes_of_written past.slight_resumed (fun _ _ => rfl)
      (write_resumed signalled _))

end Program

/-! ## Taking turns -/

/-- A run as one of many: a program, who raises the flag meanwhile, and how
long the run is followed. -/
structure Turn where
  program : Program
  signals : Signals
  budget : Nat

/-- What a run shows to the outside: how it ended, if it did, the tape and
the unread input, and the bytes that it added to the output. -/
structure Turn.Report where
  ending : Option Ending
  tape : Tape
  unread : InputScript
  appended : List UInt8

namespace Progress

/-- How a run ended, if it did. -/
def ending? : Progress → Option Ending
  | ended how _ => some how
  | running _ | stuck _ _ => none

/-- The tape and the console as a run leaves them. -/
def scene (progress : Progress) : Scene :=
  ⟨progress.run.machine.tape, progress.run.console⟩

/-- The report on a run that began on this console. -/
def report (progress : Progress) (console : Console) : Turn.Report where
  ending := progress.ending?
  tape := progress.run.machine.tape
  unread := progress.run.console.input
  appended := progress.run.console.output.accepted.toList.drop console.output.accepted.size

end Progress

/-- A scene whose console is renewed. -/
def Scene.renewed (scene : Scene) : Scene :=
  { scene with console := scene.console.renewed }

namespace Turn

/-- Take a turn on a tape and a console. -/
def take (options : Options) (turn : Turn) (scene : Scene) : Progress :=
  turn.program.executeAmid options scene.tape scene.console turn.signals turn.budget

/-- The tape and the console after some turns, one after the other. -/
def after (options : Options) (turns : List Turn) (scene : Scene) : Scene :=
  turns.foldl (fun scene turn => (turn.take options scene).scene) scene

/-- The reports on all these turns. -/
def reports (options : Options) : List Turn → Scene → List Report
  | [], _ => []
  | turn :: turns, scene =>
    (turn.take options scene).report scene.console ::
      reports options turns (turn.take options scene).scene

/-- The reports if each turn is taken on a new console, which offers what the
turn before has left. -/
def separateReports (options : Options) : List Turn → Scene → List Report
  | [], _ => []
  | turn :: turns, scene =>
    (turn.take options scene.renewed).report scene.renewed.console ::
      separateReports options turns (turn.take options scene.renewed).scene

variable {options : Options}

theorem take_renewed (turn : Turn) (scene : Scene) :
    turn.take options scene =
      (turn.take options scene.renewed).onConsole scene.console.resumed :=
  Program.executeAmid_renewed _ _ _ _ _ _

/-- The past of a console is no part of the report on a turn. -/
theorem report_renewed (turn : Turn) (scene : Scene) :
    (turn.take options scene).report scene.console =
      (turn.take options scene.renewed).report scene.renewed.console := by
  rw [take_renewed]
  generalize turn.take options scene.renewed = progress
  have appended (run : Run) :
      (scene.console.resumed run.console).output.accepted.toList.drop
          scene.console.output.accepted.size = run.console.output.accepted.toList := by
    simp only [Console.resumed, Sink.resumed, Array.toList_append]
    exact List.drop_left
  cases progress <;>
    simp only [Progress.report, Progress.onConsole, Progress.ending?, Progress.run, Run.onConsole,
      appended] <;> rfl

/-- After a turn the used console offers what the new one does. -/
theorem scene_renewed (turn : Turn) (scene : Scene) :
    (turn.take options scene).scene.renewed =
      (turn.take options scene.renewed).scene.renewed := by
  have succeeds := Program.succeeds_executeAmid turn.program options scene.tape scene.console
    turn.signals turn.budget
  have same := Console.renewed_resumed succeeds
  have taken : turn.take options scene.renewed = turn.program.executeAmid options scene.tape
    scene.console.renewed turn.signals turn.budget := rfl
  rw [take_renewed]
  rw [← taken] at same
  generalize turn.take options scene.renewed = progress at same
  cases progress <;> exact congrArg (Scene.mk _) same

theorem separateReports_congr (turns : List Turn) {first second : Scene}
    (alike : first.renewed = second.renewed) :
    separateReports options turns first = separateReports options turns second := by
  cases turns with
  | nil => rfl
  | cons turn turns => simp only [separateReports, alike]

/-- What turns on one console report is what they report on consoles of
their own. -/
theorem reports_eq_separateReports (turns : List Turn) (scene : Scene) :
    reports options turns scene = separateReports options turns scene := by
  induction turns generalizing scene with
  | nil => rfl
  | cons turn turns ih =>
    rw [reports, separateReports, ih, report_renewed,
      separateReports_congr turns (scene_renewed turn scene)]

/-- Nothing of earlier turns reaches the next one, whatever they ran and
wherever they were broken off.  It goes, step by step, as on a new console
that offers the rest of the input and of the sink under the same flag; only
the past output, prompts and flushes stand in front of its own.  So it
reports the same ending, tape, unread input and further output, and all turns
on one console together report what they would on consoles of their own. -/
theorem take_after_turns (options : Options) (turns : List Turn) (scene : Scene) (turn : Turn) :
    turn.take options (after options turns scene) =
        (turn.take options (after options turns scene).renewed).onConsole
          (after options turns scene).console.resumed ∧
      (turn.take options (after options turns scene)).report
          (after options turns scene).console =
        (turn.take options (after options turns scene).renewed).report
          (after options turns scene).renewed.console ∧
      reports options turns scene = separateReports options turns scene :=
  ⟨take_renewed turn _, report_renewed turn _, reports_eq_separateReports turns scene⟩

/-- The first turn is broken off inside a loop by a record that denotes no
cell, with a number on the output.  The next one begins with no space. -/
example :
    (reports { mode := .numeric }
      [⟨#[.command .output, .loopStart, .command .input, .loopEnd], .silent, 9⟩,
        ⟨#[.command .output], .silent, 9⟩]
      ⟨⟨#[7], 0, by decide⟩, { input := [.bytes [45, 10]] }⟩).map
        (fun report => (report.ending, report.appended)) =
      [(some (.failed (.invalidInput 2 .numeric)), Text.encode "7"),
        (some .completed, Text.encode "7\nDone!\n")] := rfl

end Turn
end RingTape
