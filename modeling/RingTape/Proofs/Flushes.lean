import RingTape.Proofs.Lockstep
import RingTape.Proofs.OpenLoops

namespace RingTape

/-!
# When output is flushed

A run flushes its output before it waits for input, and once more when it has
completed.  How often it does so is told by `Program.readings`, which counts
the attempted readings and knows nothing of flushes.

The count becomes visible where flushes fail.  A sink on which only so many
of them succeed is noticed by nothing but a flush (`Run.advance_of_latent`),
so the run on it goes abreast of the run on which they all succeed until they
are used up.  The next reading then ends the run before it has shown its
prompt and taken its record, and if there is no next reading, the completion
fails after its notice was written.
-/

/-! ## Sinks with so many flushes left -/

theorem Sink.flush_of_lasting {sink : Sink} (lasting : sink.flushesLeft = none) :
    sink.flush = (true, { sink with
      flushes := sink.flushes + 1, visible := sink.accepted.size }) := by
  simp only [flush, lasting]

namespace Console

/-- The console with a sink on which only this many flushes will succeed. -/
def withFlushes (left : Nat) (console : Console) : Console :=
  { console with output := { console.output with flushesLeft := some left } }

/-- The console with a sink that remembers other flushes. -/
def withFlushed (flushes visible : Nat) (console : Console) : Console :=
  { console with output := { console.output with flushes := flushes, visible := visible } }

variable {console : Console}

theorem latent_withFlushes (left : Nat) : Latent (withFlushes left) where
  stopped _ := rfl
  emitted _ := rfl
  recount _ _ := rfl
  write _ _ := rfl

theorem latent_withFlushed (flushes visible : Nat) : Latent (withFlushed flushes visible) where
  stopped _ := rfl
  emitted _ := rfl
  recount _ _ := rfl
  write _ _ := rfl

/-- A flush that succeeds uses one up. -/
theorem flush_withFlushes_succ (lasting : console.output.flushesLeft = none) (left : Nat) :
    (console.withFlushes (left + 1)).flush = console.flush.map id (withFlushes left) := by
  rcases console with ⟨input, ⟨accepted, capacity, flushesLeft, flushes, visible⟩, prompts,
    emitted, stopAfter, stopped⟩
  cases lasting
  rfl

/-- Reading begins with a flush, and nothing else in it depends on the sink. -/
theorem read_withFlushes_succ (lasting : console.output.flushesLeft = none) (left : Nat)
    (mode : Mode) (prompt : Option String) :
    (console.withFlushes (left + 1)).read mode prompt =
      (console.read mode prompt).map id (withFlushes left) := by
  simp only [read, flush_withFlushes_succ lasting]
  rcases console.flush with ⟨_ | _, after⟩
  · rfl
  · cases prompt <;> rfl

/-- Nor does it write. -/
theorem output_read (console : Console) (mode : Mode) (prompt : Option String) :
    (console.read mode prompt).2.output = console.output.flush.2 := by
  have flushed : console.flush.2.output = console.output.flush.2 := rfl
  rcases answer : console.flush with ⟨_ | _, after⟩
  · rw [answer] at flushed
    simp only [read, answer]
    exact flushed
  · rw [answer] at flushed
    simp only [read, answer]
    cases prompt <;> exact flushed

/-- With room for its notice a completion is a write and then a flush. -/
theorem conclude_of_unbounded (unbounded : console.output.capacity = none) :
    console.conclude = (console.write completionNotice).2.flush := by
  have written : console.write completionNotice = (.ok (), (console.write completionNotice).2) :=
    Prod.ext (write_fst_of_unbounded unbounded completionNotice) rfl
  rw [conclude, written]

theorem conclude_withFlushes_zero (unbounded : console.output.capacity = none) :
    (console.withFlushes 0).conclude =
      (.error .flushFailed, (console.write completionNotice).2.withFlushes 0) :=
  conclude_of_unbounded unbounded

theorem conclude_withFlushes_succ (reliable : console.output.Reliable) (left : Nat) :
    (console.withFlushes (left + 1)).conclude = console.conclude.map id (withFlushes left) := by
  have still := Sink.reliable_write reliable (Text.encode completionNotice)
  have unbounded : (console.withFlushes (left + 1)).output.capacity = none := reliable.capacity
  rw [conclude_of_unbounded unbounded, conclude_of_unbounded reliable.capacity]
  exact @flush_withFlushes_succ (console.write completionNotice).2 still.flushesLeft left

end Console

/-! ## One step -/

namespace Run

open Console (Latent withFlushes withFlushed latent_withFlushes latent_withFlushed)
open Progress (running ended)

variable {change : Console → Console} {run : Run} {options : Options} {program : Program}
  {instruction : Instruction}

/-- An instruction that is not going to read flushes nothing. -/
theorem advance_of_latent (latent : Latent change)
    (here : program[run.machine.position]? = some instruction)
    (free : run.console.stopped = false) (idle : run.awaitsInput options program = false) :
    (run.onConsole change).advance options program =
      (run.advance options program).onConsole change := by
  have there : program[(run.onConsole change).machine.position]? = some instruction := here
  have down : (run.onConsole change).console.stopped = false := (latent.stopped _).trans free
  cases room : run.exhaustedLimit options with
  | some limit =>
    rw [advance_of_limit here free room, advance_of_limit there down room]
    rfl
  | none =>
    cases traced : options.traced with
    | true =>
      rw [advance_of_traced here free room traced, advance_of_traced there down room traced]
      exact trace_onConsole fun _ _ => latent.write _ _
    | false =>
      have quiet : instruction ≠ .command .input := by
        rintro rfl
        rw [awaitsInput_iff.mpr ⟨traced, free, room, here⟩] at idle
        cases idle
      rw [advance_of_untraced here free room traced, advance_of_untraced there down room traced]
      exact perform_onConsole (latent.supply _ _ _ _ quiet)

theorem advance_of_awaits (awaits : run.awaitsInput options program = true) :
    run.advance options program = run.perform options program (.command .input) := by
  rcases awaitsInput_iff.mp awaits with ⟨untraced, free, room, here⟩
  exact advance_of_untraced here free room untraced

/-- A reading uses up a flush. -/
theorem advance_withFlushes_succ (awaits : run.awaitsInput options program = true)
    (lasting : run.console.output.flushesLeft = none) (left : Nat) :
    (run.onConsole (withFlushes (left + 1))).advance options program =
      (run.advance options program).onConsole (withFlushes left) := by
  have still : (run.onConsole (withFlushes (left + 1))).awaitsInput options program = true :=
    awaits
  rw [advance_of_awaits awaits, advance_of_awaits still]
  exact perform_onConsole (Console.read_withFlushes_succ lasting left _ _)

/-- Without a flush left it does nothing at all. -/
theorem advance_withFlushes_zero (awaits : run.awaitsInput options program = true) :
    (run.onConsole (withFlushes 0)).advance options program =
      ended (.failed (.device run.machine.position .flushFailed))
        (run.onConsole (withFlushes 0)) := by
  have still : (run.onConsole (withFlushes 0)).awaitsInput options program = true := awaits
  have refused : (run.onConsole (withFlushes 0)).console.supply options.mode options.prompt
      (.command .input) run.machine.tape.current =
        (.error (.device .flushFailed), run.console.withFlushes 0) := rfl
  rw [advance_of_awaits still]
  exact perform_of_error refused

/-- A reading makes everything visible and writes nothing. -/
theorem output_advance_of_awaits (awaits : run.awaitsInput options program = true)
    (lasting : run.console.output.flushesLeft = none) :
    (run.advance options program).run.console.output = { run.console.output with
      flushes := run.console.output.flushes + 1, visible := run.console.output.accepted.size } := by
  have flushed := congrArg Prod.snd (Sink.flush_of_lasting lasting)
  rw [advance_of_awaits awaits, console_perform]
  exact (Console.output_read _ _ _).trans flushed

/-- Every other instruction leaves the flushes as they were. -/
theorem flushes_advance_of_idle (here : program[run.machine.position]? = some instruction)
    (free : run.console.stopped = false) (idle : run.awaitsInput options program = false) :
    (run.advance options program).run.console.output.flushes = run.console.output.flushes := by
  have same : run.onConsole (withFlushed run.console.output.flushes run.console.output.visible) =
      run := rfl
  have passes := advance_of_latent (latent_withFlushed run.console.output.flushes
    run.console.output.visible) here free idle
  rw [same] at passes
  rw [passes]
  cases run.advance options program <;> rfl

theorem awaitsInput_of_past (past : program[run.machine.position]? = none) :
    run.awaitsInput options program = false := by
  apply Bool.eq_false_iff.mpr
  intro awaits
  have here := (awaitsInput_iff.mp awaits).2.2.2
  rw [past] at here
  cases here

section Completion

variable (past : program[run.machine.position]? = none)
include past

/-- Once its instructions are used up, a run writes the notice and flushes. -/
theorem advance_of_past (reliable : run.console.output.Reliable) :
    run.advance options program =
      ended .completed { run with
        console := (run.console.write Console.completionNotice).2.flush.2 } := by
  rw [advance_of_none past, finish_eq, Console.conclude_fst_of_reliable reliable,
    Console.conclude_of_unbounded reliable.capacity]
  rfl

theorem advance_withFlushes_succ_of_past (reliable : run.console.output.Reliable) (left : Nat) :
    (run.onConsole (withFlushes (left + 1))).advance options program =
      (run.advance options program).onConsole (withFlushes left) := by
  have there : program[(run.onConsole (withFlushes (left + 1))).machine.position]? = none := past
  have concluded := Console.conclude_withFlushes_succ reliable left
  rw [advance_of_none past, advance_of_none there, finish_eq, finish_eq]
  simp only [onConsole, Progress.onConsole, concluded, Prod.map_fst, Prod.map_snd, id_eq]

/-- Without a flush left the notice is written all the same. -/
theorem advance_withFlushes_zero_of_past (reliable : run.console.output.Reliable) :
    (run.onConsole (withFlushes 0)).advance options program =
      ended (.failed (.device run.machine.position .flushFailed)) { run with
        console := (run.console.write Console.completionNotice).2.withFlushes 0 } := by
  have there : program[(run.onConsole (withFlushes 0)).machine.position]? = none := past
  have concluded : (run.onConsole (withFlushes 0)).console.conclude = _ :=
    Console.conclude_withFlushes_zero reliable.capacity
  rw [advance_of_none there, finish_eq, concluded]
  rfl

end Completion

end Run

namespace Program

open Console (withFlushes withFlushed)
open Progress (running ended)

/-! ## A whole run -/

/-- How many readings a run attempts within a budget. -/
def readings (program : Program) (options : Options) (tape : Tape) (console : Console) : Nat → Nat
  | 0 => 0
  | budget + 1 =>
    readings program options tape console budget +
      match program.execute options tape console budget with
      | .running run => (run.awaitsInput options program).toNat
      | .ended _ _ | .stuck _ _ => 0

variable {program : Program} {options : Options} {tape : Tape} {console : Console}
  {budget limit : Nat} {run : Run}

theorem readings_succ_of_running
    (goes : program.execute options tape console budget = running run) :
    program.readings options tape console (budget + 1) =
      program.readings options tape console budget +
        (run.awaitsInput options program).toNat := by
  rw [readings, goes]

theorem readings_succ_of_over
    (stops : ∀ run, program.execute options tape console budget ≠ running run) :
    program.readings options tape console (budget + 1) =
      program.readings options tape console budget := by
  rw [readings]
  cases reached : program.execute options tape console budget with
  | running run => exact absurd reached (stops run)
  | ended how final => rfl
  | stuck why final => rfl

theorem ne_completed_of_running
    (goes : program.execute options tape console budget = running run) (final : Run) :
    program.execute options tape console budget ≠ ended .completed final := by
  rw [goes]
  exact Progress.noConfusion

theorem readings_le {few many : Nat} (more : few ≤ many) :
    program.readings options tape console few ≤ program.readings options tape console many := by
  induction more with
  | refl => exact Nat.le_refl _
  | step _ ih =>
    rw [readings]
    exact Nat.le_add_right_of_le ih

/-- A traced run attempts no reading. -/
theorem readings_of_traced (traced : options.traced = true) (budget : Nat) :
    program.readings options tape console budget = 0 := by
  induction budget with
  | zero => rfl
  | succ budget ih =>
    by_cases going : ∃ run, program.execute options tape console budget = running run
    · rcases going with ⟨run, reached⟩
      have idle : run.awaitsInput options program = false := by
        rw [Run.awaitsInput, traced]
        rfl
      rw [readings_succ_of_running reached, idle, ih]
      rfl
    · rw [readings_succ_of_over (not_exists.mp going), ih]

section Reference

variable (good : console.Undisturbed)
include good

/-- So far there was one flush for every reading. -/
theorem flushes_of_not_completed
    (unfinished : ∀ final, program.execute options tape console budget ≠ ended .completed final) :
    (program.execute options tape console budget).run.console.output.flushes =
      console.output.flushes + program.readings options tape console budget := by
  induction budget with
  | zero =>
    have same : console.withFlushed console.output.flushes console.output.visible = console := rfl
    have begins := @Run.begin_of_written
      (withFlushed console.output.flushes console.output.visible) options console rfl
      (fun _ => rfl) tape
    rw [same] at begins
    rw [execute_zero, begins]
    cases Run.begin options tape console <;> rfl
  | succ budget ih =>
    by_cases going : ∃ run, program.execute options tape console budget = running run
    · rcases going with ⟨run, reached⟩
      have still := Console.law_undisturbed.of_running good reached
      have before := ih (ne_completed_of_running reached)
      rw [reached] at before
      have counted : run.console.output.flushes = _ := before
      rw [execute_succ_of_running reached] at unfinished ⊢
      rw [readings_succ_of_running reached, ← Nat.add_assoc, ← counted]
      cases awaits : run.awaitsInput options program with
      | true =>
        rw [Run.output_advance_of_awaits awaits still.reliable.flushesLeft]
        rfl
      | false =>
        cases here : program[run.machine.position]? with
        | none => exact absurd (Run.advance_of_past here still.reliable) (unfinished _)
        | some instruction =>
          rw [Run.flushes_advance_of_idle here still.calm.stopped awaits]
          rfl
    · have stops := not_exists.mp going
      rw [execute_succ_of_over stops] at unfinished ⊢
      rw [readings_succ_of_over stops]
      exact ih unfinished

/-- A run that has completed had no instruction left one step before. -/
theorem exists_past_of_completed {final : Run}
    (ends : program.execute options tape console budget = ended .completed final) :
    ∃ count run, count < budget ∧ program.execute options tape console count = running run ∧
      program[run.machine.position]? = none ∧
      program.readings options tape console budget = program.readings options tape console count ∧
      final = { run with
        console := (run.console.write Console.completionNotice).2.flush.2 } := by
  induction budget with
  | zero =>
    rcases Run.begin_of_unbounded good.reliable.capacity options tape with ⟨after, begun⟩
    rw [execute_zero, begun] at ends
    cases ends
  | succ budget ih =>
    by_cases going : ∃ run, program.execute options tape console budget = running run
    · rcases going with ⟨run, reached⟩
      have still := Console.law_undisturbed.of_running good reached
      rw [execute_succ_of_running reached] at ends
      have past := (Run.finished_of_completed ends).1
      rw [Run.advance_of_past past still.reliable] at ends
      cases ends
      refine ⟨budget, run, Nat.lt_succ_self budget, reached, past, ?_, rfl⟩
      rw [readings_succ_of_running reached, Run.awaitsInput_of_past past]
      rfl
    · have stops := not_exists.mp going
      rw [execute_succ_of_over stops] at ends
      rcases ih ends with ⟨count, run, within, reached, past, same, whole⟩
      refine ⟨count, run, Nat.lt_succ_of_lt within, reached, past, ?_, whole⟩
      rw [readings_succ_of_over stops, same]

/-- As long as there are flushes left the two runs go abreast. -/
theorem execute_withFlushes_of_le
    (enough : program.readings options tape console budget ≤ limit)
    (unfinished : ∀ final, program.execute options tape console budget ≠ ended .completed final) :
    program.execute options tape (console.withFlushes limit) budget =
      (program.execute options tape console budget).onConsole
        (withFlushes (limit - program.readings options tape console budget)) := by
  induction budget with
  | zero =>
    rw [execute_zero, execute_zero]
    exact Run.begin_of_written rfl (fun _ => rfl) tape
  | succ budget ih =>
    have less := Nat.le_trans (readings_le (Nat.le_succ budget)) enough
    by_cases going : ∃ run, program.execute options tape console budget = running run
    · rcases going with ⟨run, reached⟩
      have still := Console.law_undisturbed.of_running good reached
      have abreast := ih less (ne_completed_of_running reached)
      rw [reached] at abreast
      rw [execute_succ_of_running reached] at unfinished ⊢
      rw [execute_succ_of_running abreast]
      rw [readings_succ_of_running reached] at enough ⊢
      cases awaits : run.awaitsInput options program with
      | true =>
        rw [awaits, Bool.toNat_true] at enough
        have one : limit - program.readings options tape console budget =
            limit - (program.readings options tape console budget + 1) + 1 := by omega
        rw [one]
        exact Run.advance_withFlushes_succ awaits still.reliable.flushesLeft _
      | false =>
        cases here : program[run.machine.position]? with
        | none => exact absurd (Run.advance_of_past here still.reliable) (unfinished _)
        | some instruction =>
          exact Run.advance_of_latent (Console.latent_withFlushes _) here still.calm.stopped awaits
    · have stops := not_exists.mp going
      rw [execute_succ_of_over stops] at unfinished ⊢
      rw [readings_succ_of_over stops] at enough ⊢
      have abreast := ih enough unfinished
      rw [← abreast]
      apply execute_succ_of_over
      rw [abreast]
      exact onConsole_ne_running stops

/-- The first reading without a flush left ends the run, which is otherwise
left as it was. -/
theorem execute_withFlushes_of_lt
    (short : limit < program.readings options tape console budget) :
    ∃ count run, program.execute options tape console count = running run ∧
      run.awaitsInput options program = true ∧
      program.readings options tape console count = limit ∧
      program.execute options tape (console.withFlushes limit) budget =
        ended (.failed (.device run.machine.position .flushFailed))
          (run.onConsole (withFlushes 0)) := by
  induction budget with
  | zero => exact absurd short (Nat.not_lt_zero limit)
  | succ budget ih =>
    by_cases earlier : limit < program.readings options tape console budget
    · rcases ih earlier with ⟨count, run, reached, awaits, used, ends⟩
      exact ⟨count, run, reached, awaits, used, execute_of_le (Nat.le_succ budget) ends⟩
    · have enough := Nat.le_of_not_lt earlier
      by_cases going : ∃ run, program.execute options tape console budget = running run
      · rcases going with ⟨run, reached⟩
        rw [readings_succ_of_running reached] at short
        cases awaits : run.awaitsInput options program with
        | false =>
          rw [awaits] at short
          exact absurd short earlier
        | true =>
          rw [awaits, Bool.toNat_true] at short
          have used : program.readings options tape console budget = limit := by omega
          have abreast := execute_withFlushes_of_le good enough (ne_completed_of_running reached)
          rw [reached, used, Nat.sub_self] at abreast
          refine ⟨budget, run, reached, awaits, used, ?_⟩
          rw [execute_succ_of_running abreast]
          exact Run.advance_withFlushes_zero awaits
      · rw [readings_succ_of_over (not_exists.mp going)] at short
        exact absurd short earlier

/-- A reading finds everything visible. -/
theorem output_of_awaits (reached : program.execute options tape console budget = running run)
    (awaits : run.awaitsInput options program = true) :
    (program.execute options tape console (budget + 1)).run.console.output =
      { run.console.output with
        flushes := run.console.output.flushes + 1
        visible := run.console.output.accepted.size } := by
  rw [execute_succ_of_running reached]
  exact Run.output_advance_of_awaits awaits
    (Console.law_undisturbed.of_running good reached).reliable.flushesLeft

section Completion

variable {final : Run}
  (ends : program.execute options tape console budget = ended .completed final)
include ends

/-- So does a completion. -/
theorem flushes_of_completed :
    final.console.output.flushes =
        console.output.flushes + program.readings options tape console budget + 1 ∧
      final.console.output.visible = final.console.output.accepted.size := by
  rcases exists_past_of_completed good ends with ⟨count, run, _, reached, past, same, rfl⟩
  have still := (Console.law_undisturbed.of_running good reached).reliable
  have before := flushes_of_not_completed good (ne_completed_of_running reached)
  rw [reached, ← same] at before
  have counted : run.console.output.flushes = _ := before
  have written := Sink.reliable_write still (Text.encode Console.completionNotice)
  have flushed : (run.console.write Console.completionNotice).2.flush.2.output = _ :=
    congrArg Prod.snd (Sink.flush_of_lasting written.flushesLeft)
  rw [flushed, ← counted]
  exact ⟨rfl, rfl⟩

/-- A run that completes is abreast until its last step, if its readings do
not use up more flushes than there are. -/
theorem exists_abreast_of_completed
    (enough : program.readings options tape console budget ≤ limit) :
    ∃ run : Run, run.console.Undisturbed ∧ program[run.machine.position]? = none ∧
      final = { run with console := (run.console.write Console.completionNotice).2.flush.2 } ∧
      (∃ count, program.execute options tape console count = running run) ∧
      ∀ how other, (run.onConsole
          (withFlushes (limit - program.readings options tape console budget))).advance options
            program = ended how other →
        program.execute options tape (console.withFlushes limit) budget = ended how other := by
  rcases exists_past_of_completed good ends with ⟨count, run, less, reached, past, same, whole⟩
  rw [same] at enough ⊢
  have abreast := execute_withFlushes_of_le good enough (ne_completed_of_running reached)
  rw [reached] at abreast
  refine ⟨run, Console.law_undisturbed.of_running good reached, past, whole, ⟨count, reached⟩, ?_⟩
  intro how other stops
  exact execute_of_le (Nat.succ_le_of_lt less) ((execute_succ_of_running abreast).trans stops)

/-- If the readings have used up all flushes, the completion fails, and has
written everything by then. -/
theorem execute_withFlushes_of_eq (balanced : Balanced program.toList)
    (all : limit = program.readings options tape console budget) :
    ∃ other, program.execute options tape (console.withFlushes limit) budget =
        ended (.failed (.device program.size .flushFailed)) other ∧
      other.machine = final.machine ∧ other.steps = final.steps ∧
      other.console.output.accepted = final.console.output.accepted ∧
      other.console.input = final.console.input ∧
      other.console.prompts = final.console.prompts := by
  rcases exists_abreast_of_completed good ends (Nat.le_of_eq all.symm) with
    ⟨run, still, past, rfl, ⟨count, reached⟩, later⟩
  have inside : run.machine.position ≤ program.size := by
    rw [← executeAmid_silent] at reached
    exact inside_of_executeAmid balanced reached
  have stands := Nat.le_antisymm inside (Array.getElem?_eq_none_iff.mp past)
  have fails := @Run.advance_withFlushes_zero_of_past run options program past still.reliable
  rw [stands] at fails
  rw [all, Nat.sub_self] at later
  rw [all]
  have whole := Console.accepted_flush (run.console.write Console.completionNotice).2
  exact ⟨_, later _ _ fails, rfl, rfl, whole.symm, rfl, rfl⟩

/-- With one more flush than there were readings it does not fail. -/
theorem execute_withFlushes_of_gt
    (more : program.readings options tape console budget < limit) :
    program.execute options tape (console.withFlushes limit) budget =
      (program.execute options tape console budget).onConsole
        (withFlushes (limit - (program.readings options tape console budget + 1))) := by
  rcases exists_abreast_of_completed good ends (Nat.le_of_lt more) with
    ⟨run, still, past, rfl, _, later⟩
  have one : limit - program.readings options tape console budget =
      limit - (program.readings options tape console budget + 1) + 1 := by omega
  have completes := @Run.advance_withFlushes_succ_of_past run options program past still.reliable
    (limit - (program.readings options tape console budget + 1))
  rw [← one, Run.advance_of_past past still.reliable] at completes
  rw [ends]
  exact later _ _ completes

end Completion

end Reference

/-- Output is flushed before a reading, after the completion notice, and at
no other time.  In a run on whose console nothing fails and nobody raises the
flag, every reading that is attempted finds everything visible that was
written before it, and so does a run that has completed.  A traced run
attempts no reading, so it flushes only then.

On a sink on which a limited number of flushes succeed, the first reading
that finds none left ends the run and leaves it otherwise as it was: it has
shown no prompt and used up no input.  Up to there the run is the same.  A
completion that finds none left fails at the end of the program and has
written its notice by then. -/
theorem flushes_of_execute {source : String} (read : parse source = .ok program)
    (options : Options) (tape : Tape) (good : console.Undisturbed) :
    let reference := program.execute options tape console
    let readings := program.readings options tape console
    (∀ budget,
      (∀ run, reference budget = running run → run.awaitsInput options program = true →
        let output := (reference (budget + 1)).run.console.output
        readings (budget + 1) = readings budget + 1 ∧
          output.flushes = run.console.output.flushes + 1 ∧
          output.accepted = run.console.output.accepted ∧
          output.visible = output.accepted.size) ∧
      ((∀ final, reference budget ≠ ended .completed final) →
        (reference budget).run.console.output.flushes =
          console.output.flushes + readings budget) ∧
      (∀ final, reference budget = ended .completed final →
        final.console.output.flushes = console.output.flushes + readings budget + 1 ∧
          final.console.output.visible = final.console.output.accepted.size) ∧
      (options.traced = true → readings budget = 0)) ∧
    ∀ limit budget,
      let limited := program.execute options tape (console.withFlushes limit) budget
      (limit < readings budget →
        ∃ count run, reference count = running run ∧ run.awaitsInput options program = true ∧
          readings count = limit ∧
          limited = ended (.failed (.device run.machine.position .flushFailed))
            (run.onConsole (withFlushes 0))) ∧
      (readings budget ≤ limit → (∀ final, reference budget ≠ ended .completed final) →
        limited = (reference budget).onConsole (withFlushes (limit - readings budget))) ∧
      ∀ final, reference budget = ended .completed final →
        (limit = readings budget →
          ∃ other, limited = ended (.failed (.device program.size .flushFailed)) other ∧
            other.machine = final.machine ∧ other.steps = final.steps ∧
            other.console.output.accepted = final.console.output.accepted ∧
            other.console.input = final.console.input ∧
            other.console.prompts = final.console.prompts) ∧
        (readings budget < limit →
          limited =
            (reference budget).onConsole (withFlushes (limit - (readings budget + 1)))) := by
  intro reference readings
  refine ⟨fun budget => ⟨?_, flushes_of_not_completed good, ?_, fun traced =>
    readings_of_traced traced budget⟩, fun limit budget => ⟨execute_withFlushes_of_lt good,
      execute_withFlushes_of_le good, fun final ends => ⟨?_, execute_withFlushes_of_gt good ends⟩⟩⟩
  · intro run reached awaits output
    have flushed : output = _ := output_of_awaits good reached awaits
    have counted := readings_succ_of_running reached
    rw [awaits] at counted
    rw [flushed]
    exact ⟨counted, rfl, rfl, rfl⟩
  · exact fun final ends => flushes_of_completed good ends
  · exact execute_withFlushes_of_eq good ends (balanced_of_parse read)

/-- Two readings, the second of them in a loop.  With one flush it fails, with
two the completion does, and three are enough. -/
theorem flushes_in_loop :
    let options : Options := { mode := .numeric, prompt := some "" }
    let console : Console := { input := [.bytes [50, 10, 48, 10]] }
    ∃ (program : Program) (run other final : Run),
      parse ",[.,]" = .ok program ∧ console.Undisturbed ∧
      program.readings options ⟨#[0], 0, by decide⟩ console 6 = 2 ∧
      program.execute options ⟨#[0], 0, by decide⟩ console 6 = ended .completed final ∧
      final.console.output.flushes = 3 ∧
      program.execute options ⟨#[0], 0, by decide⟩ (console.withFlushes 1) 6 =
        ended (.failed (.device 3 .flushFailed)) (run.onConsole (withFlushes 0)) ∧
      run.console.prompts = 1 ∧ run.console.input.content = [48, 10] ∧
      program.execute options ⟨#[0], 0, by decide⟩ (console.withFlushes 2) 6 =
        ended (.failed (.device 5 .flushFailed)) other ∧
      other.console.output.accepted = final.console.output.accepted ∧
      program.execute options ⟨#[0], 0, by decide⟩ (console.withFlushes 3) 6 =
        (ended .completed final).onConsole (withFlushes 0) := by
  intro options console
  have read : parse ",[.,]" = .ok #[.command .input, .loopStart, .command .output,
      .command .input, .loopEnd] := rfl
  have good : console.Undisturbed := ⟨⟨rfl, rfl⟩, ⟨rfl, rfl⟩⟩
  have law := @flushes_of_execute _ console ",[.,]" read options ⟨#[0], 0, by decide⟩ good
  have counted : readings #[.command .input, .loopStart, .command .output, .command .input,
      .loopEnd] options ⟨#[0], 0, by decide⟩ console 6 = 2 := rfl
  have completes : ∃ final, execute #[.command .input, .loopStart, .command .output,
      .command .input, .loopEnd] options ⟨#[0], 0, by decide⟩ console 6 =
        ended .completed final := ⟨_, rfl⟩
  rcases completes with ⟨final, completes⟩
  rcases (law.2 1 6).1 (by rw [counted]; decide) with ⟨count, run, _, _, _, fails⟩
  rcases ((law.2 2 6).2.2 final completes).1 counted.symm with ⟨other, late, _, _, written, _⟩
  have enough := ((law.2 3 6).2.2 final completes).2 (by rw [counted]; decide)
  have flushed := ((law.1 6).2.2.1 final completes).1
  rw [counted] at enough flushed
  rw [completes] at enough
  have position := congrArg (fun progress => progress.run.machine.position) fails
  have prompts := congrArg (fun progress => progress.run.console.prompts) fails
  have unread := congrArg (fun progress => progress.run.console.input.content) fails
  have third : run.machine.position = 3 := position.symm.trans rfl
  rw [third] at fails
  exact ⟨_, run, other, final, read, good, counted, completes, flushed, fails,
    prompts.symm.trans rfl, unread.symm.trans rfl, late, written, enough⟩

end Program
end RingTape
