import RingTape.Proofs.Console
import RingTape.Transcript

namespace RingTape

/-!
# What a run has written

The transcript of a run says what it has to write, the sink what it has
written.  One step hands exactly one passage to the sink
(`Run.accepted_advance`).  If the sink takes less than the whole passage, the
run ends there, so a run that goes on has written everything that it had to
write so far, and a run that is over has written a beginning of it
(`Program.accepted_of_running`, `Program.accepted_prefix`).  With a sink that
takes everything nothing is missing in the end either
(`Program.accepted_of_unbounded`).

The module begins with the moments of a run: where it stands after a number
of instructions, and from which moment it ended.
-/

namespace Program

open Progress (running ended)

/-! ## Moments -/

section Moments

variable {program : Program} {options : Options} {tape : Tape} {console : Console}
  {signals : Signals} {count budget : Nat} {run : Run}

@[simp]
theorem executeAmid_zero (program : Program) (options : Options) (tape : Tape)
    (console : Console) (signals : Signals) :
    program.executeAmid options tape console signals 0 = Run.begin options tape console := by
  rw [executeAmid]
  cases Run.begin options tape console <;> rfl

@[simp]
theorem execute_zero (program : Program) (options : Options) (tape : Tape) (console : Console) :
    program.execute options tape console 0 = Run.begin options tape console := by
  rw [← executeAmid_silent, executeAmid_zero]

theorem executeAmid_succ_of_running
    (goes : program.executeAmid options tape console signals count = running run) :
    program.executeAmid options tape console signals (count + 1) =
      (run.signalled signals).advance options program := by
  rw [executeAmid_succ, goes, Progress.iterateAmid]
  cases (run.signalled signals).advance options program <;> rfl

/-- A run that is over stays as it is. -/
theorem executeAmid_succ_of_over
    (stops : ∀ run, program.executeAmid options tape console signals count ≠ running run) :
    program.executeAmid options tape console signals (count + 1) =
      program.executeAmid options tape console signals count := by
  rw [executeAmid_succ]
  cases reached : program.executeAmid options tape console signals count with
  | running run => exact absurd reached (stops run)
  | ended how final => exact Progress.iterateAmid_ended options program signals 1 how final
  | stuck why final => exact Progress.iterateAmid_stuck options program signals 1 why final

theorem execute_succ_of_running
    (goes : program.execute options tape console count = running run) :
    program.execute options tape console (count + 1) = run.advance options program := by
  rw [← executeAmid_silent] at goes ⊢
  rw [executeAmid_succ_of_running goes, Run.signalled_silent]

theorem execute_succ_of_over
    (stops : ∀ run, program.execute options tape console count ≠ running run) :
    program.execute options tape console (count + 1) =
      program.execute options tape console count := by
  rw [← executeAmid_silent] at stops ⊢
  rw [executeAmid_succ_of_over stops, executeAmid_silent]

/-- A run that is under way was so one instruction before. -/
theorem exists_before_of_running
    (goes : program.executeAmid options tape console signals (count + 1) = running run) :
    ∃ before, program.executeAmid options tape console signals count = running before ∧
      (before.signalled signals).advance options program = running run := by
  by_cases going : ∃ before,
    program.executeAmid options tape console signals count = running before
  · rcases going with ⟨before, reached⟩
    exact ⟨before, reached, (executeAmid_succ_of_running reached).symm.trans goes⟩
  · rw [executeAmid_succ_of_over (not_exists.mp going)] at goes
    exact absurd ⟨run, goes⟩ going

theorem executeAmid_of_le {few many : Nat} (less : few ≤ many) {how : Ending} {final : Run}
    (ends : program.executeAmid options tape console signals few = ended how final) :
    program.executeAmid options tape console signals many = ended how final := by
  have parts : few + (many - few) = many := by omega
  rw [executeAmid] at ends ⊢
  rw [← parts, Progress.iterateAmid_add, ends, Progress.iterateAmid_ended]

theorem execute_of_le {few many : Nat} (less : few ≤ many) {how : Ending} {final : Run}
    (ends : program.execute options tape console few = ended how final) :
    program.execute options tape console many = ended how final := by
  rw [← executeAmid_silent] at ends ⊢
  exact executeAmid_of_le less ends

theorem steps_of_executeAmid
    (goes : program.executeAmid options tape console signals count = running run) :
    run.steps = count := by
  induction count generalizing run with
  | zero =>
    rw [executeAmid_zero] at goes
    exact Run.steps_of_begin goes
  | succ count ih =>
    rcases exists_before_of_running goes with ⟨before, reached, step⟩
    rcases Run.advance_eq_running step with ⟨_, _, _, _, counted⟩
    rw [counted, Run.steps_signalled, ih reached]

/-- A run that ended did so at its beginning, or by the step that it took
after as many instructions as it had carried out. -/
theorem last_moment {how : Ending} {final : Run}
    (ends : program.executeAmid options tape console signals budget = ended how final) :
    Run.begin options tape console = ended how final ∨
      ∃ run, final.steps < budget ∧ run.steps = final.steps ∧
        program.executeAmid options tape console signals final.steps = running run ∧
        (run.signalled signals).advance options program = ended how final := by
  induction budget with
  | zero =>
    rw [executeAmid_zero] at ends
    exact .inl ends
  | succ budget ih =>
    cases reached : program.executeAmid options tape console signals budget with
    | running run =>
      right
      rw [executeAmid_succ_of_running reached] at ends
      have kept := Run.steps_of_advance_ended ends
      rw [Run.steps_signalled] at kept
      have counted := steps_of_executeAmid reached
      have same : final.steps = budget := kept.trans counted
      refine ⟨run, Nat.lt_succ_of_le (Nat.le_of_eq same), kept.symm, ?_, ends⟩
      rw [same]
      exact reached
    | ended how' final' =>
      rw [executeAmid_succ_of_over (by simp [reached])] at ends
      rcases ih ends with begun | ⟨run, within, rest⟩
      · exact .inl begun
      · exact .inr ⟨run, Nat.lt_succ_of_lt within, rest⟩
    | stuck why final' =>
      rw [executeAmid_succ_of_over (by simp [reached]), reached] at ends
      cases ends

end Moments
end Program

theorem Sink.write_fst_nil (sink : Sink) : (sink.write []).1 = 0 := by
  rcases sink with ⟨accepted, _ | capacity, flushesLeft, flushes, visible⟩
  · rfl
  · exact Nat.zero_min _

namespace Console

/-! ## Writing a text -/

section Writing

variable {console after : Console} {mode : Mode} {text : String} {cell : UInt8}

theorem failure_of_write {failure : DeviceFailure}
    (refused : (console.write text).1 = .error failure) : failure = .sinkFull := by
  rw [write_eq] at refused
  split at refused
  · cases refused
  · exact (Except.error.inj refused).symm

theorem accepted_write (console : Console) (text : String) :
    (console.write text).2.output.accepted.toList =
      console.output.accepted.toList ++
        (Text.encode text).take (console.output.write (Text.encode text)).1 :=
  Sink.toList_accepted_write console.output (Text.encode text)

/-- A write that does not fail has written the whole text. -/
theorem accepted_write_of_ok (whole : (console.write text).1 = .ok ()) :
    (console.write text).2.output.accepted.toList =
      console.output.accepted.toList ++ Text.encode text := by
  rw [write_eq] at whole
  split at whole
  · next all => rw [accepted_write, all, List.take_length]
  · cases whole

theorem accepted_write_prefix (console : Console) (text : String) :
    (console.write text).2.output.accepted.toList <+:
      console.output.accepted.toList ++ Text.encode text := by
  rw [accepted_write]
  exact (List.prefix_append_right_inj _).mpr (List.take_prefix _ _)

theorem write_fst_empty (console : Console) : (console.write "").1 = .ok () := by
  have nothing : (console.output.write (Text.encode "")).1 = 0 :=
    Sink.write_fst_nil console.output
  rw [write_eq, nothing]
  rfl

theorem accepted_write_empty (console : Console) :
    (console.write "").2.output.accepted = console.output.accepted := by
  apply Array.toList_inj.mp
  rw [accepted_write_of_ok (write_fst_empty console)]
  exact List.append_nil _

end Writing

section Accepting

variable {console after : Console} {mode : Mode} {cell : UInt8}

theorem accepted_flush (console : Console) :
    console.flush.2.output.accepted = console.output.accepted :=
  Sink.accepted_flush console.output

theorem accepted_conclude (console : Console) :
    console.conclude.2.output.accepted =
      (console.write completionNotice).2.output.accepted := by
  rcases answer : console.write completionNotice with ⟨failure | _, after⟩
  · simp only [conclude, answer]
  · simp only [conclude, answer]
    exact accepted_flush after

theorem emit_of_error {failure : DeviceFailure}
    (refused : console.write (console.emission mode cell) = (.error failure, after)) :
    console.emit mode cell = (.error failure, after) := by
  unfold emit
  extract_lets separator
  have same : console.write (separator ++ mode.render cell) = (.error failure, after) := refused
  rw [same]

theorem emit_of_ok (accepted : console.write (console.emission mode cell) = (.ok (), after)) :
    console.emit mode cell = (.ok (), { after with emitted := after.emitted + 1 }) := by
  unfold emit
  extract_lets separator
  have same : console.write (separator ++ mode.render cell) = (.ok (), after) := accepted
  rw [same]

theorem accepted_read (console : Console) (mode : Mode) (prompt : Option String) :
    (console.read mode prompt).2.output.accepted = console.output.accepted := by
  have flushed := accepted_flush console
  rcases answer : console.flush with ⟨failure | _, after⟩
  · rw [answer] at flushed
    simpa only [read, answer] using flushed
  · rw [answer] at flushed
    simp only [read, answer]
    cases prompt <;> exact flushed

/-- Only output hands something to the sink. -/
theorem accepted_supply_of_quiet {instruction : Instruction}
    (quiet : instruction ≠ .command .output) (console : Console) (mode : Mode)
    (prompt : Option String) (cell : UInt8) :
    (console.supply mode prompt instruction cell).2.output.accepted =
      console.output.accepted := by
  cases instruction with
  | loopStart => rfl
  | loopEnd => rfl
  | command action =>
    cases action with
    | output => exact absurd rfl quiet
    | input => exact accepted_read console mode prompt
    | moveLeft => rfl
    | moveRight => rfl
    | increment => rfl
    | decrement => rfl

theorem supply_output_of_error {prompt : Option String} {failure : DeviceFailure}
    (refused : console.write (console.emission mode cell) = (.error failure, after)) :
    console.supply mode prompt (.command .output) cell = (.error (.device failure), after) := by
  simp only [supply, emit_of_error refused]

theorem supply_output_of_ok {prompt : Option String}
    (accepted : console.write (console.emission mode cell) = (.ok (), after)) :
    console.supply mode prompt (.command .output) cell =
      (.ok cell, { after with emitted := after.emitted + 1 }) := by
  simp only [supply, emit_of_ok accepted]

end Accepting
end Console

namespace Run

variable {run next : Run} {options : Options} {program : Program} {instruction : Instruction}

/-! ## One step -/

/-- An instruction that is not attempted ends the run, and nothing is
written. -/
theorem advance_of_idle (here : program[run.machine.position]? = some instruction)
    (idle : run.attempts options program = false) :
    ∃ how final, run.advance options program = .ended how final ∧
      final.machine = run.machine ∧
      final.console.output.accepted = run.console.output.accepted := by
  cases free : run.console.stopped with
  | true =>
    exact ⟨_, _, (advance_of_stopped here free).trans (interrupt_eq run), rfl,
      Console.accepted_flush run.console⟩
  | false =>
    cases room : run.exhaustedLimit options with
    | some limit => exact ⟨_, _, advance_of_limit here free room, rfl, rfl⟩
    | none =>
      rw [attempts_iff.mpr ⟨⟨instruction, here⟩, free, room⟩] at idle
      cases idle

theorem advance_of_attempts_traced (here : program[run.machine.position]? = some instruction)
    (tried : run.attempts options program = true) (traced : options.traced = true) :
    run.advance options program = run.trace options program instruction := by
  rcases attempts_iff.mp tried with ⟨_, free, room⟩
  exact advance_of_traced here free room traced

theorem advance_of_attempts_untraced (here : program[run.machine.position]? = some instruction)
    (tried : run.attempts options program = true) (untraced : options.traced = false) :
    run.advance options program = run.perform options program instruction := by
  rcases attempts_iff.mp tried with ⟨_, free, room⟩
  exact advance_of_untraced here free room untraced

theorem console_perform (run : Run) (options : Options) (program : Program)
    (instruction : Instruction) :
    (run.perform options program instruction).run.console =
      (run.console.supply options.mode options.prompt instruction
        run.machine.tape.current).2 := by
  rcases answer : run.console.supply options.mode options.prompt instruction
    run.machine.tape.current with ⟨failure | supplied, after⟩
  · rw [perform_of_error answer]
    rfl
  · cases stepped : run.machine.step program instruction supplied with
    | error reason =>
      rw [perform_of_stuck answer stepped]
      rfl
    | ok machine =>
      rw [perform_of_ok answer stepped]
      rfl

/-- The tape over which a step writes its passage.  A row is written after
its instruction took effect, everything else before. -/
def tapeShown (run : Run) (options : Options) (program : Program) : Tape :=
  match program[run.machine.position]? with
  | none => run.machine.tape
  | some instruction =>
    if options.traced then
      match run.machine.step program instruction 0 with
      | .ok machine => machine.tape
      | .error _ => run.machine.tape
    else
      run.machine.tape

/-- A step hands its passage to the sink.  If the sink refuses a part of it,
the run ends there.  Otherwise nothing else is written, and a step that has
something to write leaves the input alone. -/
inductive Handing (run : Run) (options : Options) (program : Program) : Progress → Prop
  | refused (failure : DeviceFailure) (machine : Machine)
    (cut : (run.console.write (run.passage options program).text).1 = .error failure)
    (shown : machine.tape = run.tapeShown options program) :
    Handing run options program
      (.ended (.failed (.device run.machine.position failure))
        ⟨machine, run.steps, (run.console.write (run.passage options program).text).2⟩)
  | accepted (progress : Progress)
    (whole : (run.console.write (run.passage options program).text).1 = .ok ())
    (written : progress.run.console.output.accepted =
      (run.console.write (run.passage options program).text).2.output.accepted)
    (shown : (run.passage options program).text ≠ "" →
      progress.run.machine.tape = run.tapeShown options program ∧
        progress.run.console.input = run.console.input) :
    Handing run options program progress

theorem handing_of_silent {progress : Progress}
    (silent : (run.passage options program).text = "")
    (kept : progress.run.console.output.accepted = run.console.output.accepted) :
    run.Handing options program progress := by
  refine .accepted progress ?_ ?_ fun loud => absurd silent loud
  · rw [silent]
    exact Console.write_fst_empty run.console
  · rw [silent, Console.accepted_write_empty]
    exact kept

theorem handing_of_error {text : String} {failure : DeviceFailure} {after : Console}
    {machine : Machine} (same : (run.passage options program).text = text)
    (answer : run.console.write text = (.error failure, after))
    (shown : run.tapeShown options program = machine.tape) :
    run.Handing options program
      (.ended (.failed (.device run.machine.position failure)) ⟨machine, run.steps, after⟩) := by
  subst same
  have refused := @Handing.refused run options program failure machine
    (congrArg Prod.fst answer) shown.symm
  rw [answer] at refused
  exact refused

theorem handing_of_ok {text : String} {after : Console} {progress : Progress}
    (same : (run.passage options program).text = text)
    (answer : run.console.write text = (.ok (), after))
    (written : progress.run.console.output.accepted = after.output.accepted)
    (shown : run.tapeShown options program = progress.run.machine.tape)
    (untouched : progress.run.console.input = run.console.input) :
    run.Handing options program progress := by
  subst same
  refine .accepted progress (congrArg Prod.fst answer) ?_ fun _ => ⟨shown.symm, untouched⟩
  rw [answer]
  exact written

theorem handing_finish (past : program[run.machine.position]? = none) :
    run.Handing options program run.finish := by
  have text := congrArg Passage.text (@passage_of_none run options program past)
  have shown : run.tapeShown options program = run.machine.tape := by simp only [tapeShown, past]
  have written := Console.accepted_conclude run.console
  rw [finish_eq]
  rcases answer : run.console.write Console.completionNotice with ⟨failure | _, after⟩
  · have concluded : run.console.conclude = (.error failure, after) := by
      simp only [Console.conclude, answer]
    rw [concluded]
    exact handing_of_error text answer shown
  · rw [answer] at written
    exact handing_of_ok text answer written shown
      (Console.law_untouched.conclude run.console).1

theorem handing_trace (here : program[run.machine.position]? = some instruction)
    (tried : run.attempts options program = true) (traced : options.traced = true) :
    run.Handing options program (run.trace options program instruction) := by
  have text := congrArg Passage.text (passage_of_attempts here tried)
  cases stepped : run.machine.step program instruction 0 with
  | error reason =>
    rw [trace_of_stuck stepped]
    exact handing_of_silent (text.trans (instructionText_of_stuck traced stepped)) rfl
  | ok machine =>
    have row := text.trans (instructionText_of_stepped traced stepped)
    have shown : run.tapeShown options program = machine.tape := by
      simp only [tapeShown, here, traced, if_true, stepped]
    rcases answer : run.console.write (run.rowText options instruction machine) with
      ⟨failure | _, after⟩
    · rw [trace_of_error stepped answer]
      exact handing_of_error row answer shown
    · have untouched := (Console.law_untouched.write run.console
        (run.rowText options instruction machine)).1
      rw [answer] at untouched
      rw [trace_of_ok stepped answer]
      exact handing_of_ok row answer rfl shown untouched

theorem handing_perform (here : program[run.machine.position]? = some instruction)
    (tried : run.attempts options program = true) (untraced : options.traced = false) :
    run.Handing options program (run.perform options program instruction) := by
  have text := congrArg Passage.text (passage_of_attempts here tried)
  by_cases quiet : instruction = .command .output
  · subst quiet
    have emitted := text.trans (@instructionText_of_output run options program untraced)
    have shown : run.tapeShown options program = run.machine.tape := by
      simp only [tapeShown, here, untraced, Bool.false_eq_true, if_false]
    rcases answer : run.console.write
      (run.console.emission options.mode run.machine.tape.current) with ⟨failure | _, after⟩
    · rw [perform_of_error (Console.supply_output_of_error answer)]
      exact handing_of_error emitted answer shown
    · have untouched := (Console.law_untouched.write run.console
        (run.console.emission options.mode run.machine.tape.current)).1
      rw [answer] at untouched
      rw [perform_of_ok (Console.supply_output_of_ok answer) rfl]
      exact handing_of_ok emitted answer rfl shown untouched
  · refine handing_of_silent (text.trans (instructionText_of_quiet untraced quiet)) ?_
    rw [console_perform]
    exact Console.accepted_supply_of_quiet quiet _ _ _ _

/-- Every step is of this kind. -/
theorem handing_advance (run : Run) (options : Options) (program : Program) :
    run.Handing options program (run.advance options program) := by
  cases here : program[run.machine.position]? with
  | none =>
    rw [advance_of_none here]
    exact handing_finish here
  | some instruction =>
    cases tried : run.attempts options program with
    | false =>
      rcases advance_of_idle here tried with ⟨how, final, ends, _, kept⟩
      rw [ends]
      exact handing_of_silent (congrArg Passage.text (passage_of_idle here tried)) kept
    | true =>
      cases traced : options.traced with
      | true =>
        rw [advance_of_attempts_traced here tried traced]
        exact handing_trace here tried traced
      | false =>
        rw [advance_of_attempts_untraced here tried traced]
        exact handing_perform here tried traced

theorem accepted_advance (run : Run) (options : Options) (program : Program) :
    (run.advance options program).run.console.output.accepted =
      (run.console.write (run.passage options program).text).2.output.accepted := by
  have handing := handing_advance run options program
  generalize run.advance options program = progress at handing
  cases handing with
  | refused failure machine cut shown => rfl
  | accepted _ whole written shown => exact written

/-- A run that goes on has written its whole passage. -/
theorem write_of_advance_running (goes : run.advance options program = .running next) :
    (run.console.write (run.passage options program).text).1 = .ok () := by
  have handing := handing_advance run options program
  rw [goes] at handing
  cases handing with
  | accepted _ whole written shown => exact whole

/-- So has a run that is not ended by a device. -/
theorem write_of_advance_sound {how : Ending} {final : Run}
    (ends : run.advance options program = .ended how final)
    (sound : ∀ position failure, how ≠ .failed (.device position failure)) :
    (run.console.write (run.passage options program).text).1 = .ok () := by
  have handing := handing_advance run options program
  rw [ends] at handing
  cases handing with
  | refused failure machine cut shown => exact absurd rfl (sound _ _)
  | accepted _ whole written shown => exact whole

/-- What is written before the first instruction. -/
def opening (options : Options) : String :=
  if options.traced then Trace.header else ""

theorem opening_of_untraced (untraced : options.traced = false) : opening options = "" := by
  simp only [opening, untraced, Bool.false_eq_true, if_false]

theorem opening_of_traced (traced : options.traced = true) :
    opening options = Trace.header := by
  simp only [opening, traced, if_true]

theorem accepted_begin (options : Options) (tape : Tape) (console : Console) :
    (begin options tape console).run.console.output.accepted =
      (console.write (opening options)).2.output.accepted := by
  apply begin_cases (motive := fun progress => progress.run.console.output.accepted =
    (console.write (opening options)).2.output.accepted)
  · intro untraced
    rw [opening_of_untraced untraced, Console.accepted_write_empty]
    rfl
  · intro failure after traced answer
    rw [opening_of_traced traced]
    exact congrArg (fun answer => answer.2.output.accepted) answer.symm
  · intro after traced answer
    rw [opening_of_traced traced]
    exact congrArg (fun answer => answer.2.output.accepted) answer.symm

theorem begin_of_unbounded {console : Console} (unbounded : console.output.capacity = none)
    (options : Options) (tape : Tape) :
    ∃ after, begin options tape console = .running ⟨.load tape, 0, after⟩ := by
  apply begin_cases (motive := fun progress =>
    ∃ after, progress = .running ⟨.load tape, 0, after⟩)
  · exact fun _ => ⟨_, rfl⟩
  · intro failure after _ answer
    have fresh : ({ console with emitted := 0 } : Console).output.capacity = none := unbounded
    have whole := Console.write_fst_of_unbounded fresh Trace.header
    rw [answer] at whole
    cases whole
  · exact fun after _ _ => ⟨after, rfl⟩

theorem write_of_begin_running {tape : Tape} {console : Console}
    (begun : begin options tape console = .running run) :
    (console.write (opening options)).1 = .ok () := by
  revert begun
  apply begin_cases (motive := fun progress => progress = .running run →
    (console.write (opening options)).1 = .ok ())
  · intro untraced _
    rw [opening_of_untraced untraced]
    exact Console.write_fst_empty console
  · intro failure after _ _ begun
    cases begun
  · intro after traced answer _
    rw [opening_of_traced traced]
    exact congrArg Prod.fst answer

end Run

namespace Program

open Progress (running ended)

/-! ## A whole run -/

variable {program : Program} {options : Options} {tape : Tape} {console : Console}
  {signals : Signals} {budget : Nat} {run : Run}

theorem transcript_zero_bytes :
    (program.transcript options tape console signals 0).flatMap Passage.bytes =
      Text.encode (Run.opening options) := by
  rw [transcript, Run.opening]
  cases options.traced <;> rfl

theorem transcript_succ_of_running
    (goes : program.executeAmid options tape console signals budget = running run) :
    program.transcript options tape console signals (budget + 1) =
      program.transcript options tape console signals budget ++
        [(run.signalled signals).passage options program] := by
  rw [transcript, goes, Progress.passages]

theorem transcript_succ_of_over
    (stops : ∀ run, program.executeAmid options tape console signals budget ≠ running run) :
    program.transcript options tape console signals (budget + 1) =
      program.transcript options tape console signals budget := by
  rw [transcript]
  cases reached : program.executeAmid options tape console signals budget with
  | running run => exact absurd reached (stops run)
  | ended how final => exact List.append_nil _
  | stuck why final => exact List.append_nil _

/-- Behind the header every passage belongs to a moment of the run. -/
theorem mem_transcript {passage : Passage}
    (member : passage ∈ program.transcript options tape console signals budget) :
    passage.author = .header ∨
      ∃ count run, count < budget ∧
        program.executeAmid options tape console signals count = running run ∧
        passage = (run.signalled signals).passage options program := by
  induction budget with
  | zero =>
    rw [transcript] at member
    split at member
    · exact .inl (congrArg Passage.author (List.mem_singleton.mp member))
    · cases member
  | succ budget ih =>
    rw [transcript] at member
    rcases List.mem_append.mp member with earlier | last
    · rcases ih earlier with header | ⟨count, run, within, rest⟩
      · exact .inl header
      · exact .inr ⟨count, run, Nat.lt_succ_of_lt within, rest⟩
    · cases reached : program.executeAmid options tape console signals budget with
      | running run =>
        rw [reached] at last
        exact .inr ⟨budget, run, Nat.lt_succ_self budget, reached, List.mem_singleton.mp last⟩
      | ended how final =>
        rw [reached] at last
        cases last
      | stuck why final =>
        rw [reached] at last
        cases last

/-- The notice belongs to the moment when the instructions are used up. -/
theorem exists_past_of_notice {passage : Passage}
    (member : passage ∈ program.transcript options tape console signals budget)
    (notice : passage.author = .notice) :
    ∃ count run, count < budget ∧
      program.executeAmid options tape console signals count = running run ∧
      program[run.machine.position]? = none := by
  rcases mem_transcript member with header | ⟨count, run, within, goes, rfl⟩
  · rw [header] at notice
    cases notice
  · refine ⟨count, run, within, goes, ?_⟩
    cases here : program[run.machine.position]? with
    | none => rfl
    | some instruction =>
      have there : program[(run.signalled signals).machine.position]? = some instruction := here
      simp only [Run.passage, there] at notice
      cases notice

/-- The step after that moment ends the run. -/
theorem exists_ended_of_past {count : Nat}
    (goes : program.executeAmid options tape console signals count = running run)
    (past : program[run.machine.position]? = none) :
    ∃ how final, program.executeAmid options tape console signals (count + 1) =
        ended how final ∧ final.steps = count := by
  have there : program[(run.signalled signals).machine.position]? = none := past
  have carried : run.steps = count := steps_of_executeAmid goes
  have concludes := executeAmid_succ_of_running goes
  rw [Run.advance_of_none there, Run.finish_eq] at concludes
  exact ⟨_, _, concludes, carried⟩

/-- So a run that is under way has no notice in its transcript. -/
theorem notice_notMem_of_running
    (goes : program.executeAmid options tape console signals budget = running run) :
    ∀ passage ∈ program.transcript options tape console signals budget,
      passage.author ≠ .notice := by
  intro passage member notice
  rcases exists_past_of_notice member notice with ⟨count, last, within, reached, past⟩
  rcases exists_ended_of_past reached past with ⟨how, final, ends, _⟩
  rw [executeAmid_of_le (Nat.succ_le_of_lt within) ends] at goes
  cases goes

/-- A run that is under way has written its transcript so far. -/
theorem accepted_of_running
    (goes : program.executeAmid options tape console signals budget = running run) :
    run.console.output.accepted.toList =
      console.output.accepted.toList ++
        (program.transcript options tape console signals budget).flatMap Passage.bytes := by
  induction budget generalizing run with
  | zero =>
    rw [executeAmid_zero] at goes
    have begun := Run.accepted_begin options tape console
    rw [goes] at begun
    have written : run.console.output.accepted = _ := begun
    rw [transcript_zero_bytes, written,
      Console.accepted_write_of_ok (Run.write_of_begin_running goes)]
  | succ budget ih =>
    rcases exists_before_of_running goes with ⟨before, reached, step⟩
    have whole := Console.accepted_write_of_ok (Run.write_of_advance_running step)
    have passed := Run.accepted_advance (before.signalled signals) options program
    rw [step] at passed
    have written : run.console.output.accepted = _ := passed
    rw [written, whole, transcript_succ_of_running reached, List.flatMap_append,
      List.flatMap_singleton, ← List.append_assoc, ← ih reached]
    rfl

/-- However a run goes, nothing but its transcript is ever written. -/
theorem accepted_prefix (program : Program) (options : Options) (tape : Tape)
    (console : Console) (signals : Signals) (budget : Nat) :
    (program.executeAmid options tape console signals budget).run.console.output.accepted.toList
      <+: console.output.accepted.toList ++
        (program.transcript options tape console signals budget).flatMap Passage.bytes := by
  induction budget with
  | zero =>
    rw [executeAmid_zero, transcript_zero_bytes, Run.accepted_begin]
    exact Console.accepted_write_prefix console _
  | succ budget ih =>
    by_cases going : ∃ run, program.executeAmid options tape console signals budget = running run
    · rcases going with ⟨run, reached⟩
      have before := accepted_of_running reached
      rw [executeAmid_succ_of_running reached, transcript_succ_of_running reached,
        Run.accepted_advance, List.flatMap_append, List.flatMap_singleton, ← List.append_assoc,
        ← before]
      exact Console.accepted_write_prefix _ _
    · have stops := not_exists.mp going
      rw [executeAmid_succ_of_over stops, transcript_succ_of_over stops]
      exact ih

theorem capacity_executeAmid (program : Program) (options : Options) (tape : Tape)
    (console : Console) (signals : Signals) (budget : Nat) :
    (program.executeAmid options tape console signals budget).run.console.output.capacity =
      console.output.capacity := by
  have law := Console.law_capacity
  have begun := Run.keeps_begin law.toOutputLaw options tape console
  exact (Progress.keeps_iterateAmid law.toOutputLaw (fun _ => law) signals (fun _ => rfl) program
    budget _).trans begun

/-- With a sink that takes everything a run writes its whole transcript. -/
theorem accepted_of_unbounded (unbounded : console.output.capacity = none) (budget : Nat) :
    (program.executeAmid options tape console signals budget).run.console.output.accepted.toList =
      console.output.accepted.toList ++
        (program.transcript options tape console signals budget).flatMap Passage.bytes := by
  induction budget with
  | zero =>
    rw [executeAmid_zero, transcript_zero_bytes, Run.accepted_begin,
      Console.accepted_write_of_ok (Console.write_fst_of_unbounded unbounded _)]
  | succ budget ih =>
    by_cases going : ∃ run, program.executeAmid options tape console signals budget = running run
    · rcases going with ⟨run, reached⟩
      have bounds := capacity_executeAmid program options tape console signals budget
      rw [reached] at bounds ih
      have free : (run.signalled signals).console.output.capacity = none := bounds.trans unbounded
      have before : (run.signalled signals).console.output.accepted.toList = _ := ih
      rw [executeAmid_succ_of_running reached, transcript_succ_of_running reached,
        Run.accepted_advance, Console.accepted_write_of_ok (Console.write_fst_of_unbounded free _),
        before, List.flatMap_append, List.flatMap_singleton, ← List.append_assoc]
      rfl
    · have stops := not_exists.mp going
      rw [executeAmid_succ_of_over stops, transcript_succ_of_over stops]
      exact ih

end Program
end RingTape
