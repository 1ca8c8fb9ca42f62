import RingTape.Proofs.Console
import RingTape.Proofs.OpenLoops

namespace RingTape

/-!
# The step limit

A limit is looked at before an instruction is attempted, and only then.  So
a limited run is the unlimited one, cut off in front of the first attempt
that the limit has no room for.  What decides between the two is therefore
the number of attempts, not the number of instructions that succeed, nor the
length of the program.

Both directions are inductions along the unlimited run.  As long as its
attempts fit the limit, the two runs take the same steps
(`iterateAmid_withLimit`).  If they do not fit, the unlimited run comes to
the state in which the limited one ends (`exists_reached`).
-/

/-- The same options with this step limit or with none. -/
def Options.withLimit (options : Options) (limit : Option Nat) : Options :=
  { options with stepLimit := limit }

namespace Run

variable {run : Run} {options : Options} {program : Program} {limit : Nat}

theorem exhaustedLimit_of_lt (options : Options) (room : run.steps < limit) :
    run.exhaustedLimit (options.withLimit (some limit)) = none := by
  have not_le : ¬ limit ≤ run.steps := Nat.not_le_of_lt room
  simp only [exhaustedLimit, Options.withLimit, Option.filter_some, decide_eq_true_eq, not_le,
    if_false]

theorem exhaustedLimit_of_le (options : Options) (full : limit ≤ run.steps) :
    run.exhaustedLimit (options.withLimit (some limit)) = some limit := by
  simp only [exhaustedLimit, Options.withLimit, Option.filter_some, decide_eq_true_eq, full,
    if_true]

theorem attempts_unlimited :
    run.attempts (options.withLimit none) program = true ↔
      (∃ instruction, program[run.machine.position]? = some instruction) ∧
        run.console.stopped = false := by
  have unlimited : run.exhaustedLimit (options.withLimit none) = none := rfl
  simp only [attempts_iff, unlimited, and_true]

/-- With room for another step the limit makes no difference to it. -/
theorem advance_of_lt (room : run.steps < limit) :
    run.advance (options.withLimit (some limit)) program =
      run.advance (options.withLimit none) program := by
  have limited := exhaustedLimit_of_lt options room
  have unlimited : run.exhaustedLimit (options.withLimit none) = none := rfl
  simp only [advance, limited, unlimited]
  rfl

/-- Where nothing is attempted the run ends, and the limit makes no
difference to that either. -/
theorem advance_of_not_attempts
    (idle : run.attempts (options.withLimit none) program = false) :
    ∃ how final, ∀ limit : Option Nat,
      run.advance (options.withLimit limit) program = .ended how final := by
  cases here : program[run.machine.position]? with
  | none =>
    exact ⟨_, _, fun _ => (advance_of_none here).trans (finish_eq run)⟩
  | some instruction =>
    cases stopped : run.console.stopped with
    | true =>
      exact ⟨_, _, fun _ => (advance_of_stopped here stopped).trans (interrupt_eq run)⟩
    | false =>
      rw [attempts_unlimited.mpr ⟨⟨instruction, here⟩, stopped⟩] at idle
      cases idle

/-- Without room for another step a limited run ends in front of it. -/
theorem advance_of_attempts (attempted : run.attempts (options.withLimit none) program = true)
    (full : limit ≤ run.steps) :
    run.advance (options.withLimit (some limit)) program =
      .ended (.failed (.stepLimit limit)) run := by
  rcases attempts_unlimited.mp attempted with ⟨⟨instruction, here⟩, free⟩
  exact advance_of_limit here free (exhaustedLimit_of_le options full)

end Run

namespace Progress

variable {options : Options} {program : Program} {signals : Signals} {limit : Nat}

/-- A run that is still under way has attempted an instruction every time. -/
theorem attempted_eq_of_running {count : Nat} {progress : Progress} {last : Run}
    (goes : iterateAmid (options.withLimit none) program signals count progress = running last) :
    attempted (options.withLimit none) program signals count progress = count := by
  induction count generalizing progress with
  | zero => cases progress <;> rfl
  | succ count ih =>
    cases progress with
    | running run =>
      simp only [iterateAmid] at goes
      cases tried : (run.signalled signals).attempts (options.withLimit none) program with
      | true => simp only [attempted, tried, ih goes, Bool.toNat_true, Nat.add_comm]
      | false =>
        rcases Run.advance_of_not_attempts tried with ⟨how, final, idle⟩
        rw [idle none, iterateAmid_ended] at goes
        cases goes
    | ended how run => cases goes
    | stuck why run => cases goes

/-- As long as the attempts fit the limit, a limited run is the unlimited one. -/
theorem iterateAmid_withLimit {budget : Nat} {run : Run}
    (fits : run.steps + attempted (options.withLimit none) program signals budget (running run)
      ≤ limit) :
    iterateAmid (options.withLimit (some limit)) program signals budget (running run) =
      iterateAmid (options.withLimit none) program signals budget (running run) := by
  induction budget generalizing run with
  | zero => rfl
  | succ budget ih =>
    simp only [attempted] at fits
    simp only [iterateAmid]
    cases tried : (run.signalled signals).attempts (options.withLimit none) program with
    | true =>
      rw [tried, Bool.toNat_true] at fits
      have room : (run.signalled signals).steps < limit := by
        rw [Run.steps_signalled]
        omega
      rw [Run.advance_of_lt room]
      cases next : (run.signalled signals).advance (options.withLimit none) program with
      | running after =>
        rcases Run.advance_eq_running next with ⟨_, _, _, _, counted⟩
        rw [Run.steps_signalled] at counted
        rw [next] at fits
        exact ih (by omega)
      | ended how final => simp
      | stuck why final => simp
    | false =>
      rcases Run.advance_of_not_attempts tried with ⟨how, final, idle⟩
      simp [idle]

/-- If the attempts do not fit the limit, the limited run ends in a state
that the unlimited run goes through. -/
theorem exists_reached {budget : Nat} {run : Run} (within : run.steps ≤ limit)
    (exceeds : limit <
      run.steps + attempted (options.withLimit none) program signals budget (running run)) :
    ∃ reached, reached.steps = limit ∧ limit < run.steps + budget ∧
      iterateAmid (options.withLimit none) program signals (limit - run.steps) (running run) =
        running reached ∧
      iterateAmid (options.withLimit (some limit)) program signals (limit - run.steps + 1)
        (running run) = ended (.failed (.stepLimit limit)) reached := by
  induction budget generalizing run with
  | zero =>
    simp only [attempted] at exceeds
    omega
  | succ budget ih =>
    simp only [attempted] at exceeds
    cases tried : (run.signalled signals).attempts (options.withLimit none) program with
    | false =>
      rcases Run.advance_of_not_attempts tried with ⟨how, final, idle⟩
      rw [tried, idle none, Bool.toNat_false, attempted_ended] at exceeds
      omega
    | true =>
      have quiet : run.signalled signals = run :=
        Run.signalled_of_stopped (Run.attempts_unlimited.mp tried).2
      rw [quiet] at tried exceeds
      rw [tried, Bool.toNat_true] at exceeds
      by_cases full : limit ≤ run.steps
      · have same : limit - run.steps = 0 := Nat.sub_eq_zero_of_le full
        refine ⟨run, Nat.le_antisymm within full, by omega, ?_, ?_⟩
        · rw [same]
          rfl
        · rw [same]
          simp only [iterateAmid, quiet, Run.advance_of_attempts tried full]
      · have room : run.steps < limit := Nat.lt_of_not_le full
        cases next : run.advance (options.withLimit none) program with
        | running after =>
          rcases Run.advance_eq_running next with ⟨_, _, _, _, counted⟩
          rw [next] at exceeds
          have stillWithin : after.steps ≤ limit := by omega
          rcases ih stillWithin (by omega) with ⟨reached, exact_, bound, unlimited, limited⟩
          have left : limit - run.steps = limit - after.steps + 1 := by omega
          refine ⟨reached, exact_, by omega, ?_, ?_⟩
          · rw [left, iterateAmid, quiet, next]
            exact unlimited
          · rw [left, iterateAmid, quiet, Run.advance_of_lt room, next]
            exact limited
        | ended how final =>
          rw [next, attempted_ended] at exceeds
          omega
        | stuck why final =>
          rw [next, attempted_stuck] at exceeds
          omega

end Progress

namespace Program

open Progress (running ended)

variable {program : Program} {options : Options} {tape : Tape} {console : Console}
  {signals : Signals} {limit budget : Nat}

theorem executeAmid_withLimit
    (fits : program.attempted (options.withLimit none) tape console signals budget ≤ limit) :
    program.executeAmid (options.withLimit (some limit)) tape console signals budget =
      program.executeAmid (options.withLimit none) tape console signals budget := by
  rw [attempted] at fits
  rw [executeAmid, executeAmid]
  have alike : Run.begin (options.withLimit (some limit)) tape console =
      Run.begin (options.withLimit none) tape console := rfl
  rw [alike]
  cases began : Run.begin (options.withLimit none) tape console with
  | running start =>
    have first := Run.steps_of_begin began
    rw [began] at fits
    apply Progress.iterateAmid_withLimit
    omega
  | ended how final => simp
  | stuck why final => simp

theorem exists_reached_of_lt
    (exceeds :
      limit < program.attempted (options.withLimit none) tape console signals budget) :
    ∃ reached, reached.steps = limit ∧ limit < budget ∧
      program.executeAmid (options.withLimit none) tape console signals limit =
        running reached ∧
      program.executeAmid (options.withLimit (some limit)) tape console signals (limit + 1) =
        ended (.failed (.stepLimit limit)) reached := by
  rw [attempted] at exceeds
  simp only [executeAmid]
  have alike : Run.begin (options.withLimit (some limit)) tape console =
      Run.begin (options.withLimit none) tape console := rfl
  rw [alike]
  cases began : Run.begin (options.withLimit none) tape console with
  | running start =>
    have first := Run.steps_of_begin began
    rw [began] at exceeds
    have within : start.steps ≤ limit := by omega
    have beyond : limit < start.steps + Progress.attempted (options.withLimit none) program
        signals budget (running start) := by omega
    rcases Progress.exists_reached within beyond with
      ⟨reached, count, bound, unlimited, limited⟩
    rw [first, Nat.sub_zero] at unlimited limited
    exact ⟨reached, count, by omega, unlimited, limited⟩
  | ended how final =>
    rw [began, Progress.attempted_ended] at exceeds
    omega
  | stuck why final =>
    rw [began, Progress.attempted_stuck] at exceeds
    omega

theorem prefix_of_executeAmid {few many : Nat} (more : few ≤ many) :
    (program.executeAmid options tape console signals few).written.toList <+:
      (program.executeAmid options tape console signals many).written.toList := by
  have parts : few + (many - few) = many := by omega
  rw [← parts, executeAmid, executeAmid, Progress.iterateAmid_add]
  exact Progress.keeps_iterateAmid Console.law_accepted.toOutputLaw
    (fun _ => Console.law_accepted) signals (fun _ => List.prefix_rfl) program _ _

/-- The law of the step limit.  A limit that has room for every attempt of
the unlimited run changes nothing.  A smaller one ends the run in the very
state that the unlimited run is in after so many instructions, so what was
written is a beginning of the whole output.  If the unlimited run never
ends, every limit is too small.  And with a limit every run ends. -/
theorem executeAmid_stepLimit {source : String} (read : parse source = .ok program)
    (options : Options) (tape : Tape) (console : Console) (signals : Signals) :
    (∀ budget how final,
      program.executeAmid (options.withLimit none) tape console signals budget =
          ended how final →
        ∀ limit,
          (program.attempted (options.withLimit none) tape console signals budget ≤ limit →
            program.executeAmid (options.withLimit (some limit)) tape console signals budget =
              ended how final) ∧
          (limit < program.attempted (options.withLimit none) tape console signals budget →
            ∃ reached, reached.steps = limit ∧
              program.executeAmid (options.withLimit none) tape console signals limit =
                running reached ∧
              program.executeAmid (options.withLimit (some limit)) tape console signals
                (limit + 1) = ended (.failed (.stepLimit limit)) reached ∧
              reached.console.output.accepted.toList <+:
                final.console.output.accepted.toList)) ∧
    ((∀ budget, ∃ run,
        program.executeAmid (options.withLimit none) tape console signals budget =
          running run) →
      ∀ limit, ∃ reached, reached.steps = limit ∧
        program.executeAmid (options.withLimit none) tape console signals limit =
          running reached ∧
        program.executeAmid (options.withLimit (some limit)) tape console signals (limit + 1) =
          ended (.failed (.stepLimit limit)) reached) ∧
    ∀ limit, ∃ how final,
      program.executeAmid (options.withLimit (some limit)) tape console signals (limit + 1) =
        ended how final := by
  refine ⟨?_, ?_, ?_⟩
  · intro budget how final ends limit
    constructor
    · intro fits
      exact (executeAmid_withLimit fits).trans ends
    · intro exceeds
      rcases exists_reached_of_lt exceeds with ⟨reached, count, bound, unlimited, limited⟩
      refine ⟨reached, count, unlimited, limited, ?_⟩
      have grown := @prefix_of_executeAmid program (options.withLimit none) tape console signals _ _
        (Nat.le_of_lt bound)
      rw [unlimited, ends] at grown
      exact grown
  · intro forever limit
    rcases forever (limit + 1) with ⟨run, goes⟩
    have count : program.attempted (options.withLimit none) tape console signals (limit + 1) =
        limit + 1 := Progress.attempted_eq_of_running goes
    have exceeds :
        limit < program.attempted (options.withLimit none) tape console signals (limit + 1) := by
      omega
    rcases exists_reached_of_lt exceeds with ⟨reached, steps, _, unlimited, limited⟩
    exact ⟨reached, steps, unlimited, limited⟩
  · intro limit
    by_cases fits :
      program.attempted (options.withLimit none) tape console signals (limit + 1) ≤ limit
    · rw [executeAmid_withLimit fits]
      have balanced := balanced_of_parse read
      cases reached :
        program.executeAmid (options.withLimit none) tape console signals (limit + 1) with
      | running run =>
        have count : program.attempted (options.withLimit none) tape console signals (limit + 1) =
            limit + 1 := Progress.attempted_eq_of_running reached
        omega
      | ended how final => exact ⟨how, final, rfl⟩
      | stuck why final => exact absurd reached (executeAmid_ne_stuck balanced _ _ _ _ _ why final)
    · rcases exists_reached_of_lt (Nat.lt_of_not_le fits) with ⟨reached, _, _, _, limited⟩
      exact ⟨_, reached, limited⟩

/-- The third instruction attempted is a read that fails. -/
theorem stepLimit_at_failing_read :
    ∃ program final reached, parse "+[,]" = .ok program ∧
      program.attempted (({} : Options).withLimit none) ⟨#[0], 0, by decide⟩
        { input := [.failure .other] } .silent 3 = 3 ∧
      program.executeAmid (({} : Options).withLimit (some 3)) ⟨#[0], 0, by decide⟩
        { input := [.failure .other] } .silent 3 =
          ended (.failed (.device 2 .inputFailed)) final ∧
      program.executeAmid (({} : Options).withLimit (some 2)) ⟨#[0], 0, by decide⟩
        { input := [.failure .other] } .silent 3 = ended (.failed (.stepLimit 2)) reached ∧
      reached.steps = 2 ∧ reached.console.input.length = 1 := by
  have read : parse "+[,]" =
      .ok #[.command .increment, .loopStart, .command .input, .loopEnd] := rfl
  have law := (executeAmid_stepLimit read {} ⟨#[0], 0, by decide⟩
    { input := [.failure .other] } .silent).1 3 (.failed (.device 2 .inputFailed)) _ rfl
  rcases (law 2).2 (by decide) with ⟨reached, steps, unlimited, limited, _⟩
  cases unlimited
  exact ⟨_, _, _, read, rfl, (law 3).1 (by decide), limited, steps, rfl⟩

end Program
end RingTape
