import RingTape.Proofs.Course
import RingTape.Proofs.Failures
import RingTape.Trace.Table

namespace RingTape

/-!
# The trace table is faithful

A traced run writes a table.  Its rows are those of the course of the program:
the row with a number shows the configuration of that number, and what it
says of its instruction is true of the configuration that follows.  Nothing
else is written but the header, and the notice once the instructions are used
up.  Since the table can be read back, what is written determines the
course as far as the run has come (`Program.tabulated_of_execute`).

The proof goes along the run.  Each step adds its passage to the table, and
the passage of an instruction is its row.
-/

namespace Trace

variable {before : Snapshot} {after : Machine}

/-- A loop that is not entered is left behind its end. -/
theorem agrees_loopStart :
    (Row.between before .loopStart after).reading.Agrees after.configuration ↔
      if before.cell = 0 then after.position = after.position - 1 + 1
      else after.position = before.position + 1 := by
  by_cases zero : before.cell = 0 <;>
    simp only [Row.between, Action.between, Row.reading, Reading.Agrees, Action.announced?, zero,
      if_true, if_false] <;> rfl

/-- A loop that is repeated goes on behind its beginning. -/
theorem agrees_loopEnd :
    (Row.between before .loopEnd after).reading.Agrees after.configuration ↔
      if before.cell = 0 then after.position = before.position + 1
      else after.position = after.position - 1 + 1 := by
  by_cases zero : before.cell = 0 <;>
    simp only [Row.between, Action.between, Row.reading, Reading.Agrees, Action.announced?, zero,
      if_true, if_false] <;> rfl

end Trace

namespace Machine

variable {program : Program} {machine next : Machine} {instruction : Instruction}

/-- What the row of an instruction says is true of the machine after it. -/
theorem agrees_of_step (stepped : machine.step program instruction 0 = .ok next) (count : Nat) :
    (Trace.Row.between (.ofMachine count machine) instruction next).reading.Agrees
      next.configuration := by
  have shown : (Trace.Snapshot.ofMachine count machine).cell = machine.tape.current := rfl
  cases instruction with
  | command action =>
    cases stepped
    cases action with
    | input =>
      have stored := machine.tape.current_put 0
      exact congrArg (fun cell : UInt8 => some cell.toNat) stored.symm
    | _ => rfl
  | loopStart =>
    rw [Trace.agrees_loopStart, shown]
    by_cases zero : machine.tape.current = 0
    · rw [if_pos zero]
      cases found : program.matchingEnd? machine.position with
      | none =>
        simp only [step, zero, if_true, found] at stepped
        cases stepped
      | some close =>
        simp only [step, zero, if_true, found] at stepped
        cases stepped
        rfl
    · rw [if_neg zero]
      simp only [step, zero, if_false] at stepped
      cases stepped
      rfl
  | loopEnd =>
    rw [Trace.agrees_loopEnd, shown]
    by_cases zero : machine.tape.current = 0
    · rw [if_pos zero]
      simp only [step, zero, if_true] at stepped
      cases stepped
      rfl
    · rw [if_neg zero]
      cases record : machine.openLoops with
      | nil =>
        simp only [step, zero, if_false, record] at stepped
        cases stepped
      | cons start outer =>
        simp only [step, zero, if_false, record] at stepped
        cases stepped
        rfl

end Machine

namespace Run

variable {run next : Run} {options : Options} {program : Program}

/-- A run that goes on had room for another instruction. -/
theorem exhaustedLimit_of_advance_running (goes : run.advance options program = .running next) :
    run.exhaustedLimit options = none := by
  rcases advance_eq_running goes with ⟨instruction, _, here, _⟩
  cases free : run.console.stopped with
  | true =>
    rw [advance_of_stopped here free, interrupt_eq] at goes
    cases goes
  | false =>
    cases room : run.exhaustedLimit options with
    | none => rfl
    | some limit =>
      rw [advance_of_limit here free room] at goes
      cases goes

theorem exhaustedLimit_eq_some_iff {limit : Nat} :
    run.exhaustedLimit options = some limit ↔
      options.stepLimit = some limit ∧ limit ≤ run.steps := by
  rw [exhaustedLimit, Option.filter_eq_some_iff, decide_eq_true_eq]

end Run

namespace Program

open Progress (running ended)

variable {program : Program} {options : Options} {tape : Tape} {console : Console}
  {budget limit : Nat}

/-- A run never gets beyond its limit. -/
theorem le_stepLimit_of_running {run : Run} (limited : options.stepLimit = some limit)
    (goes : program.execute options tape console budget = running run) : budget ≤ limit := by
  cases budget with
  | zero => exact Nat.zero_le limit
  | succ count =>
    rw [← executeAmid_silent] at goes
    rcases exists_before_of_running goes with ⟨before, reached, step⟩
    rw [Run.signalled_silent] at step
    have carried : before.steps = count := steps_of_executeAmid reached
    have room := Run.exhaustedLimit_of_advance_running step
    refine Nat.lt_of_not_le fun full => ?_
    rw [Run.exhaustedLimit_eq_some_iff.mpr ⟨limited, carried ▸ full⟩] at room
    cases room

/-- A run that exceeds its limit has carried out as many instructions. -/
theorem steps_of_stepLimit (balanced : Balanced program.toList) {final : Run}
    (ends : program.execute options tape console budget = ended (.failed (.stepLimit limit)) final) :
    final.steps = limit := by
  rw [← executeAmid_silent] at ends
  rcases last_moment ends with begun | ⟨run, _, counted, goes, step⟩
  · cases (Run.begin_failed begun).2.1
  · rw [Run.signalled_silent] at step
    have inside : run.machine.position ≤ program.size := inside_of_executeAmid balanced goes
    rw [executeAmid_silent] at goes
    have fails := Run.fails_of_advance inside step
    generalize final.machine = machine at fails
    cases fails with
    | limit _ _ _ reached =>
      rcases Run.exhaustedLimit_eq_some_iff.mp reached with ⟨limited, full⟩
      have within := le_stepLimit_of_running limited goes
      omega

/-- Every row shows the configuration of its number and says the truth about
the one that follows. -/
def FollowsCourse (program : Program) (tape : Tape) (rows : List Trace.Row) : Prop :=
  ∀ index row, rows[index]? = some row →
    ∃ before after, program.course tape index = some before ∧
      program.course tape (index + 1) = some after ∧
      row.before = ⟨index, before.position, before.tape.pointer, before.tape.current⟩ ∧
      program[before.position]? = some row.instruction ∧ row.reading.Agrees after

theorem followsCourse_concat {rows : List Trace.Row} {row : Trace.Row}
    {before after : Configuration} (follows : program.FollowsCourse tape rows)
    (here : program.course tape rows.length = some before)
    (next : program.course tape (rows.length + 1) = some after)
    (shown : row.before =
      ⟨rows.length, before.position, before.tape.pointer, before.tape.current⟩)
    (instruction : program[before.position]? = some row.instruction)
    (agrees : row.reading.Agrees after) : program.FollowsCourse tape (rows ++ [row]) := by
  intro index other found
  rcases Nat.lt_trichotomy index rows.length with earlier | same | later
  · rw [List.getElem?_append_left earlier] at found
    exact follows index other found
  · subst same
    rw [List.getElem?_concat_length] at found
    cases found
    exact ⟨before, after, here, next, shown, instruction, agrees⟩
  · rw [List.getElem?_eq_none (by rw [List.length_append, List.length_singleton]; omega)] at found
    cases found

/-- What a run has come to after some steps: the table that its passages
make, a row for each instruction, and the notice once it stands at the end of
the program. -/
structure Recorded (program : Program) (options : Options) (tape : Tape) (console : Console)
    (budget : Nat) (rows : List Trace.Row) (concluded : Bool) : Prop where
  text : String.join ((program.transcript options tape console .silent budget).map Passage.text) =
    Trace.table options.mode rows concluded
  counted : rows.length = (program.execute options tape console budget).run.steps
  standing : program.course tape rows.length =
    some (program.execute options tape console budget).run.machine.configuration
  follows : program.FollowsCourse tape rows
  concluded_iff : concluded = true ↔
    ∃ how final, program.execute options tape console budget = ended how final ∧
      final.machine.position = program.size
  completed : concluded = true → console.output.flushesLeft = none →
    ∃ final, program.execute options tape console budget = ended .completed final

theorem recorded_zero (traced : options.traced = true)
    (unbounded : console.output.capacity = none) :
    program.Recorded options tape console 0 [] false := by
  rcases Run.begin_of_unbounded unbounded options tape with ⟨after, begun⟩
  rw [← execute_zero program] at begun
  refine ⟨?_, ?_, ?_, ?_, ?_, fun impossible => absurd impossible Bool.false_ne_true⟩
  · rw [transcript, traced, Trace.table_nil]
    rfl
  · rw [begun]
    rfl
  · rw [begun]
    rfl
  · intro index row found
    cases found
  · refine ⟨fun impossible => absurd impossible Bool.false_ne_true, ?_⟩
    rintro ⟨how, final, ends, _⟩
    rw [begun] at ends
    cases ends

/-- The steps of a run that is over add nothing to its table. -/
theorem Recorded.succ_of_over {rows : List Trace.Row} {concluded : Bool}
    (recorded : program.Recorded options tape console budget rows concluded)
    (stops : ∀ run, program.execute options tape console budget ≠ running run) :
    program.Recorded options tape console (budget + 1) rows concluded := by
  have same := execute_succ_of_over stops
  have silent := stops
  rw [← executeAmid_silent] at silent
  rcases recorded with ⟨text, counted, standing, follows, concludedIff, completed⟩
  rw [← transcript_succ_of_over silent] at text
  rw [← same] at counted standing concludedIff completed
  exact ⟨text, counted, standing, follows, concludedIff, completed⟩

section UnderWay

variable {rows : List Trace.Row} {run : Run}

theorem not_concluded_of_running {concluded : Bool}
    (recorded : program.Recorded options tape console budget rows concluded)
    (goes : program.execute options tape console budget = running run) : concluded = false := by
  cases concluded with
  | false => rfl
  | true =>
    rcases recorded.concluded_iff.mp rfl with ⟨how, final, ends, _⟩
    rw [goes] at ends
    cases ends

theorem Recorded.text_succ (recorded : program.Recorded options tape console budget rows false)
    (goes : program.execute options tape console budget = running run) :
    String.join ((program.transcript options tape console .silent (budget + 1)).map
        Passage.text) =
      Trace.table options.mode rows false ++ (run.passage options program).text := by
  have silent := goes
  rw [← executeAmid_silent] at silent
  rw [transcript_succ_of_running silent, Run.signalled_silent, List.map_append,
    String.join_append, recorded.text, List.map_singleton, String.join_cons, String.join_nil,
    String.append_empty]

/-- Behind the last instruction the notice is added. -/
theorem Recorded.succ_of_past
    (recorded : program.Recorded options tape console budget rows false)
    (unbounded : console.output.capacity = none) (inside : run.machine.position ≤ program.size)
    (goes : program.execute options tape console budget = running run)
    (past : program[run.machine.position]? = none) :
    program.Recorded options tape console (budget + 1) rows true := by
  have ends := execute_succ_of_running goes
  rw [Run.advance_of_none past, Run.finish_eq] at ends
  have counted := recorded.counted
  have standing := recorded.standing
  rw [goes] at counted standing
  have last : run.machine.position = program.size :=
    Nat.le_antisymm inside (Array.getElem?_eq_none_iff.mp past)
  refine ⟨?_, ?_, ?_, recorded.follows, ⟨fun _ => ⟨_, _, ends, last⟩, fun _ => rfl⟩, ?_⟩
  · rw [recorded.text_succ goes, Run.passage_of_none past, Trace.table_concluded]
  · rw [ends]
    exact counted
  · rw [ends]
    exact standing
  · intro _ flushes
    have reliable : console.output.Reliable := ⟨unbounded, flushes⟩
    have kept := Console.law_reliable.of_running reliable goes
    have concluded : run.console.conclude.1 = .ok () := Console.conclude_fst_of_reliable kept
    rw [concluded] at ends
    exact ⟨_, ends⟩

/-- An instruction that is not attempted adds nothing. -/
theorem Recorded.succ_of_idle {instruction : Instruction}
    (recorded : program.Recorded options tape console budget rows false)
    (goes : program.execute options tape console budget = running run)
    (here : program[run.machine.position]? = some instruction)
    (idle : run.attempts options program = false) :
    program.Recorded options tape console (budget + 1) rows false := by
  rcases Run.advance_of_idle here idle with ⟨how, final, step, kept, _⟩
  have ends := (execute_succ_of_running goes).trans step
  have counted := recorded.counted
  have standing := recorded.standing
  rw [goes] at counted standing
  have inside := (Array.getElem?_eq_some_iff.mp here).1
  refine ⟨?_, ?_, ?_, recorded.follows, ⟨fun impossible => absurd impossible Bool.false_ne_true, ?_⟩,
    fun impossible => absurd impossible Bool.false_ne_true⟩
  · rw [recorded.text_succ goes, Run.passage_of_idle here idle]
    exact String.append_empty
  · rw [ends]
    exact counted.trans (Run.steps_of_advance_ended step).symm
  · have unmoved : final.machine.configuration = run.machine.configuration := by rw [kept]
    rw [ends]
    exact standing.trans (congrArg some unmoved.symm)
  · rintro ⟨other, final', ends', last⟩
    rw [ends] at ends'
    rw [← (Progress.ended.inj ends').2, kept] at last
    omega

/-- An instruction that is attempted adds its row. -/
theorem Recorded.succ_of_attempts {instruction : Instruction} (balanced : Balanced program.toList)
    (traced : options.traced = true) (unbounded : console.output.capacity = none)
    (recorded : program.Recorded options tape console budget rows false)
    (goes : program.execute options tape console budget = running run)
    (here : program[run.machine.position]? = some instruction)
    (tried : run.attempts options program = true) :
    ∃ row, program.Recorded options tape console (budget + 1) (rows ++ [row]) false := by
  have nested := nested_of_execute balanced goes
  rcases Machine.exists_step_nested balanced nested here 0 with ⟨next, stepped, _⟩
  have silent := goes
  rw [← executeAmid_silent] at silent
  have bounds := capacity_executeAmid program options tape console .silent budget
  rw [silent] at bounds
  have free : run.console.output.capacity = none := bounds.trans unbounded
  have accepted : run.console.write (run.rowText options instruction next) =
      (.ok (), (run.console.write (run.rowText options instruction next)).2) :=
    Prod.ext (Console.write_fst_of_unbounded free _) rfl
  have advanced := execute_succ_of_running goes
  rw [Run.advance_of_attempts_traced here tried traced, Run.trace_of_ok stepped accepted]
    at advanced
  have carried : run.steps = budget := steps_of_executeAmid silent
  have counted : rows.length = run.steps := by
    have counted := recorded.counted
    rw [goes] at counted
    exact counted
  have numbered : rows.length = budget := counted.trans carried
  have before := course_of_execute balanced traced goes
  have after := course_of_execute balanced traced advanced
  rw [← numbered] at before after
  refine ⟨.between (.ofMachine run.steps run.machine) instruction next, ?_, ?_, ?_, ?_,
    ⟨fun impossible => absurd impossible Bool.false_ne_true, ?_⟩,
    fun impossible => absurd impossible Bool.false_ne_true⟩
  · rw [recorded.text_succ goes, Run.passage_of_attempts here tried,
      Run.instructionText_of_stepped traced stepped, Trace.table_concat]
    rfl
  · rw [advanced, List.length_append, counted]
    rfl
  · rw [advanced, List.length_append]
    exact after
  · refine followsCourse_concat recorded.follows before after ?_ here
      (Machine.agrees_of_step stepped run.steps)
    rw [counted]
    rfl
  · rintro ⟨how, final, ends, _⟩
    rw [advanced] at ends
    cases ends

end UnderWay

theorem exists_recorded (balanced : Balanced program.toList) (traced : options.traced = true)
    (unbounded : console.output.capacity = none) (budget : Nat) :
    ∃ rows concluded, program.Recorded options tape console budget rows concluded := by
  induction budget with
  | zero => exact ⟨[], false, recorded_zero traced unbounded⟩
  | succ budget ih =>
    rcases ih with ⟨rows, concluded, recorded⟩
    by_cases going : ∃ run, program.execute options tape console budget = running run
    · rcases going with ⟨run, goes⟩
      cases not_concluded_of_running recorded goes
      cases here : program[run.machine.position]? with
      | none =>
        have inside := (nested_of_execute balanced goes).inside
        exact ⟨rows, true, recorded.succ_of_past unbounded inside goes here⟩
      | some instruction =>
        cases tried : run.attempts options program with
        | false => exact ⟨rows, false, recorded.succ_of_idle goes here tried⟩
        | true =>
          rcases recorded.succ_of_attempts balanced traced unbounded goes here tried with
            ⟨row, longer⟩
          exact ⟨rows ++ [row], false, longer⟩
    · exact ⟨rows, concluded, recorded.succ_of_over (not_exists.mp going)⟩

/-- What a traced run has written, and what can be learned from it. -/
structure Tabulated (program : Program) (options : Options) (tape : Tape) (console : Console)
    (budget : Nat) (rows : List Trace.Row) (concluded : Bool) : Prop where
  /-- Nothing but the table was written. -/
  written : (program.execute options tape console budget).written.toList =
    console.output.accepted.toList ++
      Text.encode (Trace.table options.mode rows concluded)
  /-- Whoever reads what was written learns what the rows say. -/
  readable : (Text.decode? ((program.execute options tape console budget).written.toList.drop
      console.output.accepted.size)).map (fun text => Trace.readTable text.toList) =
    some (rows.map Trace.Row.reading)
  /-- There is one row for each instruction. -/
  counted : rows.length = (program.execute options tape console budget).run.steps
  /-- The run has come as far along the course as it has rows. -/
  standing : program.course tape rows.length =
    some (program.execute options tape console budget).run.machine.configuration
  follows : program.FollowsCourse tape rows
  concluded_iff : concluded = true ↔
    ∃ how final, program.execute options tape console budget = ended how final ∧
      final.machine.position = program.size
  completed_iff : console.output.flushesLeft = none →
    (concluded = true ↔
      ∃ final, program.execute options tape console budget = ended .completed final)
  limited : ∀ limit final,
    program.execute options tape console budget = ended (.failed (.stepLimit limit)) final →
      rows.length = limit

/-- The trace table is faithful.  With a sink that takes everything, a traced
run has at every moment written a table and nothing else, with the row of
each instruction that it has carried out; the table ends in the notice if and
only if the run has come to the end of the program, which is to complete
unless the last flush fails.  The rows follow the course of the program, and
they can be read back from what was written, so that this determines the
course up to there.  A run that exceeds its limit has as many rows. -/
theorem tabulated_of_execute {source : String} (read : parse source = .ok program)
    (options : Options) (traced : options.traced = true) (tape : Tape)
    (unbounded : console.output.capacity = none) (budget : Nat) :
    ∃ rows concluded, program.Tabulated options tape console budget rows concluded := by
  have balanced := balanced_of_parse read
  rcases @exists_recorded program options tape console balanced traced unbounded budget with
    ⟨rows, concluded, recorded⟩
  have written : (program.execute options tape console budget).written.toList =
      console.output.accepted.toList ++
        Text.encode (Trace.table options.mode rows concluded) := by
    have whole := @accepted_of_unbounded program options tape console .silent unbounded budget
    have bytes : (program.transcript options tape console .silent budget).flatMap Passage.bytes =
        Text.encode (Trace.table options.mode rows concluded) := by
      rw [← recorded.text, Text.encode_join, List.flatMap_map]
      rfl
    rw [bytes, executeAmid_silent] at whole
    exact whole
  refine ⟨rows, concluded, written, ?_, recorded.counted, recorded.standing, recorded.follows,
    recorded.concluded_iff, ?_, ?_⟩
  · rw [written, ← Array.length_toList, List.drop_left, Text.decode?_encode, Option.map_some,
      Trace.readTable_table]
  · intro flushes
    refine ⟨fun done => recorded.completed done flushes, ?_⟩
    rintro ⟨final, ends⟩
    have nested := nested_executeAmid balanced options tape console .silent budget
    rw [executeAmid_silent, ends] at nested
    exact recorded.concluded_iff.mpr ⟨_, final, ends, nested.2 rfl⟩
  · intro limit final ends
    rw [recorded.counted, ends]
    exact steps_of_stepLimit balanced ends

/-- A loop without end, stopped by the limit.  The last row stands at the end
of the loop, and goes back to its beginning. -/
theorem tabulated_of_endless_loop :
    ∃ program rows concluded row, parse "+[]" = .ok program ∧
      ({} : Console).output.capacity = none ∧
      program.Tabulated { traced := true, stepLimit := some 3 } ⟨#[0], 0, by decide⟩ {} 4 rows
        concluded ∧
      rows.length = 3 ∧ rows[2]? = some row ∧ row.before = ⟨2, 2, 0, 1⟩ ∧
      row.instruction = .loopEnd ∧ row.reading.Agrees ⟨2, ⟨#[1], 0, by decide⟩⟩ := by
  have read : parse "+[]" = .ok #[.command .increment, .loopStart, .loopEnd] := rfl
  rcases @tabulated_of_execute _ {} "+[]" read { traced := true, stepLimit := some 3 } rfl
    ⟨#[0], 0, by decide⟩ rfl 4 with ⟨rows, concluded, tabulated⟩
  have three : rows.length = 3 := tabulated.counted.trans (by decide +kernel)
  have last : rows[2]? = some (rows.get ⟨2, by omega⟩) := List.getElem?_eq_getElem _
  rcases tabulated.follows 2 _ last with ⟨before, after, here, next, shown, instruction, agrees⟩
  have found : matchingEnd? #[.command .increment, .loopStart, .loopEnd] 1 = some 2 :=
    closingFrom_zero_loopEnd rfl
  have back : course #[.command .increment, .loopStart, .loopEnd] ⟨#[0], 0, by decide⟩ 3 =
      some ⟨2, ⟨#[1], 0, by decide⟩⟩ := by
    have place : course #[.command .increment, .loopStart, .loopEnd] ⟨#[0], 0, by decide⟩ 2 =
        some ⟨2, ⟨#[1], 0, by decide⟩⟩ := rfl
    rw [course, place, Option.bind_some, Configuration.next?_loopEnd_of_ne_zero rfl (by decide),
      matchingStart?_of_matchingEnd? rfl found]
    rfl
  cases here
  cases next.symm.trans back
  exact ⟨_, rows, concluded, _, read, rfl, tabulated, three, last, shown,
    (Option.some.inj instruction).symm, agrees⟩

end Program
end RingTape
