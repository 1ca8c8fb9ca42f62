import RingTape.Proofs.Advance
import RingTape.Signals

namespace RingTape

/-!
# What a run can do to its console

A run reaches its console through a few operations only.  A relation between
consoles that each of them respects, and that is reflexive and transitive,
relates the console before any stretch of a run to the console after it.
Traced runs need fewer operations than others, so there are two notions: a
`Console.OutputLaw` holds of everything that writing and flushing can do,
and a `Console.Law` of everything at all.

The laws at the end of the module say that output is never taken back, that
a console whose flag nothing raises stays so, that a sink without bounds
stays so, and that writing touches neither the input nor the prompts.
-/

namespace Sink

/-- A sink that accepts everything and flushes whenever it is asked to. -/
structure Reliable (sink : Sink) : Prop where
  capacity : sink.capacity = none
  flushesLeft : sink.flushesLeft = none

variable {sink : Sink}

theorem reliable_write (reliable : sink.Reliable) (content : List UInt8) :
    (sink.write content).2.Reliable :=
  ⟨reliable.capacity, reliable.flushesLeft⟩

theorem reliable_flush (reliable : sink.Reliable) : sink.flush.2.Reliable := by
  simp only [flush, reliable.flushesLeft]
  exact ⟨reliable.capacity, rfl⟩

@[simp]
theorem capacity_flush (sink : Sink) : sink.flush.2.capacity = sink.capacity := by
  unfold flush
  split <;> rfl

end Sink

namespace Console

/-- A console whose stop flag is down and is not raised by writing. -/
structure Unstoppable (console : Console) : Prop where
  stopped : console.stopped = false
  stopAfter : console.stopAfter = none

/-- A console on which nothing fails and nobody interferes. -/
structure Undisturbed (console : Console) : Prop where
  calm : console.Unstoppable
  reliable : console.output.Reliable

/-- Nothing about it depends on what there is to read. -/
theorem Undisturbed.withInput {console : Console} (good : console.Undisturbed)
    (script : InputScript) : ({ console with input := script } : Console).Undisturbed :=
  ⟨⟨good.calm.stopped, good.calm.stopAfter⟩, good.reliable⟩

section Success

variable {console : Console}

theorem write_eq (console : Console) (text : String) :
    (console.write text).1 =
      if (console.output.write (Text.encode text)).1 = (Text.encode text).length then .ok ()
      else .error .sinkFull := rfl

theorem write_fst_of_unbounded (unbounded : console.output.capacity = none) (text : String) :
    (console.write text).1 = .ok () := by
  rw [write_eq, if_pos (Sink.write_of_unbounded unbounded _)]

theorem write_fst_of_reliable (reliable : console.output.Reliable) (text : String) :
    (console.write text).1 = .ok () :=
  write_fst_of_unbounded reliable.capacity text

theorem flush_fst_of_reliable (reliable : console.output.Reliable) :
    console.flush.1 = .ok () := by
  have done : console.output.flush.1 = true := by
    simp only [Sink.flush, reliable.flushesLeft]
  change (if console.output.flush.1 then Except.ok () else Except.error DeviceFailure.flushFailed) = _
  rw [if_pos done]

theorem conclude_fst_of_reliable (reliable : console.output.Reliable) :
    console.conclude.1 = .ok () := by
  have written : console.write completionNotice =
      (.ok (), (console.write completionNotice).2) :=
    Prod.ext (write_fst_of_reliable reliable completionNotice) rfl
  rw [conclude, written]
  exact flush_fst_of_reliable (Sink.reliable_write reliable _)

theorem emit_fst_of_reliable (reliable : console.output.Reliable) (mode : Mode)
    (cell : UInt8) : (console.emit mode cell).1 = .ok () := by
  unfold emit
  extract_lets separator
  have written : console.write (separator ++ mode.render cell) =
      (.ok (), (console.write (separator ++ mode.render cell)).2) :=
    Prod.ext (write_fst_of_reliable reliable _) rfl
  rw [written]

end Success

/-- A relation that holds between a console and whatever writing and
flushing make of it. -/
structure OutputLaw (Keeps : Console → Console → Prop) : Prop where
  refl : ∀ console, Keeps console console
  trans : ∀ {first second third}, Keeps first second → Keeps second third → Keeps first third
  recount : ∀ console emitted, Keeps console { console with emitted := emitted }
  write : ∀ console text, Keeps console (console.write text).2
  flush : ∀ console, Keeps console console.flush.2

/-- A relation that holds between a console and whatever a run makes of it. -/
structure Law (Keeps : Console → Console → Prop) : Prop extends OutputLaw Keeps where
  ask : ∀ console prompt, Keeps console (console.ask prompt)
  receive : ∀ console mode, Keeps console (console.receive mode).2

section Operations

variable {Keeps : Console → Console → Prop}

theorem OutputLaw.conclude (law : OutputLaw Keeps) (console : Console) :
    Keeps console console.conclude.2 := by
  have written := law.write console completionNotice
  rcases answer : console.write completionNotice with ⟨failure | _, after⟩
  · rw [answer] at written
    simpa only [Console.conclude, answer] using written
  · rw [answer] at written
    simp only [Console.conclude, answer]
    exact law.trans written (law.flush after)

theorem OutputLaw.emit (law : OutputLaw Keeps) (console : Console) (mode : Mode)
    (cell : UInt8) : Keeps console (console.emit mode cell).2 := by
  unfold Console.emit
  extract_lets separator
  have written := law.write console (separator ++ mode.render cell)
  rcases answer : console.write (separator ++ mode.render cell) with ⟨failure | _, after⟩
  · rw [answer] at written
    exact written
  · rw [answer] at written
    exact law.trans written (law.recount after (after.emitted + 1))

theorem Law.read (law : Law Keeps) (console : Console) (mode : Mode) (prompt : Option String) :
    Keeps console (console.read mode prompt).2 := by
  have flushed := law.flush console
  rcases answer : console.flush with ⟨failure | _, after⟩
  · rw [answer] at flushed
    simpa only [Console.read, answer] using flushed
  · rw [answer] at flushed
    simp only [Console.read, answer]
    exact law.trans flushed (law.trans (law.ask after prompt) (law.receive _ mode))

theorem Law.supply (law : Law Keeps) (console : Console) (mode : Mode)
    (prompt : Option String) (instruction : Instruction) (cell : UInt8) :
    Keeps console (console.supply mode prompt instruction cell).2 := by
  have unchanged := law.refl console
  cases instruction with
  | loopStart => exact unchanged
  | loopEnd => exact unchanged
  | command action =>
    cases action with
    | output =>
      have emitted := law.emit console mode cell
      rcases answer : console.emit mode cell with ⟨failure | _, after⟩ <;>
        rw [answer] at emitted <;> simpa only [Console.supply, answer] using emitted
    | input => exact law.read console mode prompt
    | moveLeft => exact unchanged
    | moveRight => exact unchanged
    | increment => exact unchanged
    | decrement => exact unchanged

end Operations
end Console

namespace Run

open Console

variable {Keeps : Console → Console → Prop} {options : Options}

/-- What the operations of a run respect, one step respects. -/
theorem keeps_advance (law : OutputLaw Keeps)
    (reading : options.traced = false → Law Keeps) (run : Run) (program : Program) :
    Keeps run.console (run.advance options program).run.console := by
  have supplied (untraced : options.traced = false) (instruction : Instruction) :=
    (reading untraced).supply run.console options.mode options.prompt instruction
      run.machine.tape.current
  have outcome := outcome_advance run options program
  generalize run.advance options program = progress at outcome
  cases outcome with
  | finished _ => exact law.conclude run.console
  | interrupted _ _ _ => exact law.flush run.console
  | limited _ _ _ _ _ => exact law.refl run.console
  | refused instruction _ console _ untraced answer =>
    have kept := supplied untraced instruction
    rw [answer] at kept
    exact kept
  | performed instruction _ console _ _ untraced answer _ =>
    have kept := supplied untraced instruction
    rw [answer] at kept
    exact kept
  | stuck instruction _ console _ _ untraced answer _ =>
    have kept := supplied untraced instruction
    rw [answer] at kept
    exact kept
  | rowRefused instruction _ console machine _ _ _ answer =>
    have kept := law.write run.console (run.rowText options instruction machine)
    rw [answer] at kept
    exact kept
  | rowWritten instruction console machine _ _ _ answer =>
    have kept := law.write run.console (run.rowText options instruction machine)
    rw [answer] at kept
    exact kept
  | rowStuck _ _ _ _ _ => exact law.refl run.console

theorem keeps_begin (law : OutputLaw Keeps) (options : Options) (tape : Tape)
    (console : Console) : Keeps console (begin options tape console).run.console := by
  have recounted := law.recount console 0
  have written := law.trans recounted (law.write _ Trace.header)
  apply begin_cases (motive := fun progress => Keeps console progress.run.console)
  · intro _
    exact recounted
  · intro failure after _ answer
    rw [answer] at written
    exact written
  · intro after _ answer
    rw [answer] at written
    exact written

end Run

namespace Progress

open Console

variable {Keeps : Console → Console → Prop} {options : Options}

/-- What one step respects, a run respects, if the signals respect it. -/
theorem keeps_iterateAmid (law : OutputLaw Keeps)
    (reading : options.traced = false → Law Keeps) (signals : Signals)
    (raise : ∀ run : Run, Keeps run.console (run.signalled signals).console)
    (program : Program) (count : Nat) (progress : Progress) :
    Keeps progress.run.console
      (iterateAmid options program signals count progress).run.console := by
  apply iterateAmid_preserves options program signals
    (motive := fun reached => Keeps progress.run.console reached.run.console)
  · intro run reached
    exact law.trans reached (law.trans (raise run)
      (Run.keeps_advance law reading (run.signalled signals) program))
  · exact law.refl _

theorem keeps_iterate (law : OutputLaw Keeps) (reading : options.traced = false → Law Keeps)
    (program : Program) (count : Nat) (progress : Progress) :
    Keeps progress.run.console (iterate options program count progress).run.console := by
  rw [← iterateAmid_silent]
  apply keeps_iterateAmid law reading .silent
  intro run
  rw [Run.signalled_silent]
  exact law.refl run.console

end Progress

namespace Console

/-- What no operation takes away from a console, a run does not either. -/
theorem Law.of_iterate {Good : Console → Prop}
    (law : Law fun before after => Good before → Good after) {options : Options}
    {program : Program} {count : Nat} {run next : Run} (good : Good run.console)
    (goes : Progress.iterate options program count (.running run) = .running next) :
    Good next.console := by
  have kept := @Progress.keeps_iterate _ options law.toOutputLaw (fun _ => law) program count
    (.running run)
  rw [goes] at kept
  exact kept good

theorem Law.of_advance {Good : Console → Prop}
    (law : Law fun before after => Good before → Good after) {options : Options}
    {program : Program} {run next : Run} (good : Good run.console)
    (goes : run.advance options program = .running next) : Good next.console := by
  have kept := @Run.keeps_advance _ options law.toOutputLaw (fun _ => law) run program good
  rw [goes] at kept
  exact kept

theorem Law.of_execute {Good : Console → Prop}
    (law : Law fun before after => Good before → Good after) {console : Console}
    (good : Good console) (program : Program) (options : Options) (tape : Tape) (budget : Nat) :
    Good (program.execute options tape console budget).run.console := by
  have begun := Run.keeps_begin law.toOutputLaw options tape console good
  exact @Progress.keeps_iterate _ options law.toOutputLaw (fun _ => law) program budget _ begun

theorem Law.of_running {Good : Console → Prop}
    (law : Law fun before after => Good before → Good after) {console : Console}
    (good : Good console) {program : Program} {options : Options} {tape : Tape} {budget : Nat}
    {run : Run} (goes : program.execute options tape console budget = .running run) :
    Good run.console := by
  have kept := law.of_execute good program options tape budget
  rw [goes] at kept
  exact kept

/-! ## Particular laws -/

/-- Output is never taken back. -/
theorem law_accepted :
    Law fun before after => before.output.accepted.toList <+: after.output.accepted.toList where
  refl _ := List.prefix_rfl
  trans first second := first.trans second
  recount _ _ := List.prefix_rfl
  write console text := by
    change _ <+: (console.output.write (Text.encode text)).2.accepted.toList
    rw [Sink.toList_accepted_write]
    exact List.prefix_append _ _
  flush console := by
    have same := congrArg Array.toList (Sink.accepted_flush console.output)
    exact ⟨[], (List.append_nil _).trans same.symm⟩
  ask _ prompt := by
    cases prompt <;> exact List.prefix_rfl
  receive _ _ := List.prefix_rfl

theorem law_capacity :
    Law fun before after => after.output.capacity = before.output.capacity where
  refl _ := rfl
  trans first second := second.trans first
  recount _ _ := rfl
  write _ _ := rfl
  flush console := Sink.capacity_flush console.output
  ask _ prompt := by
    cases prompt <;> rfl
  receive _ _ := rfl

/-- A run does not raise a flag that nothing makes it raise. -/
theorem law_unstoppable : Law fun before after => before.Unstoppable → after.Unstoppable where
  refl _ := id
  trans first second := second ∘ first
  recount _ _ calm := ⟨calm.stopped, calm.stopAfter⟩
  write console text calm := by
    refine ⟨?_, calm.stopAfter⟩
    change (console.stopped || raisesStop console.stopAfter _ _) = false
    rw [calm.stopped, calm.stopAfter]
    rfl
  flush _ calm := ⟨calm.stopped, calm.stopAfter⟩
  ask _ prompt calm := by
    cases prompt <;> exact ⟨calm.stopped, calm.stopAfter⟩
  receive _ _ calm := ⟨calm.stopped, calm.stopAfter⟩

theorem Unstoppable.of_iterate {options : Options} {program : Program} {count : Nat}
    {run next : Run} (calm : run.console.Unstoppable)
    (goes : Progress.iterate options program count (.running run) = .running next) :
    next.console.Unstoppable :=
  law_unstoppable.of_iterate calm goes

theorem law_reliable :
    Law fun before after => before.output.Reliable → after.output.Reliable where
  refl _ := id
  trans first second := second ∘ first
  recount _ _ := id
  write _ _ reliable := Sink.reliable_write reliable _
  flush _ := Sink.reliable_flush
  ask _ prompt reliable := by
    cases prompt <;> exact reliable
  receive _ _ := id

theorem law_undisturbed :
    Law fun before after => before.Undisturbed → after.Undisturbed where
  refl _ := id
  trans first second := second ∘ first
  recount _ _ good := ⟨law_unstoppable.recount _ _ good.calm, good.reliable⟩
  write _ _ good := ⟨law_unstoppable.write _ _ good.calm, law_reliable.write _ _ good.reliable⟩
  flush _ good := ⟨law_unstoppable.flush _ good.calm, law_reliable.flush _ good.reliable⟩
  ask _ _ good := ⟨law_unstoppable.ask _ _ good.calm, law_reliable.ask _ _ good.reliable⟩
  receive _ _ good := ⟨law_unstoppable.receive _ _ good.calm, good.reliable⟩

/-- Writing and flushing leave the input alone and show no prompt. -/
theorem law_untouched :
    OutputLaw fun before after => after.input = before.input ∧ after.prompts = before.prompts where
  refl _ := ⟨rfl, rfl⟩
  trans first second := ⟨second.1.trans first.1, second.2.trans first.2⟩
  recount _ _ := ⟨rfl, rfl⟩
  write _ _ := ⟨rfl, rfl⟩
  flush _ := ⟨rfl, rfl⟩

end Console
end RingTape
