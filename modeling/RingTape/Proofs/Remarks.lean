import RingTape.Proofs.Records
import RingTape.Remarks

namespace RingTape

/-!
# What a run says on its way

Remarks are put into words one after another, so a run that is followed in
two parts says in all what it says in the parts, and nothing is said after
its end (`Progress.remarks_add`, `Program.remarks_of_ended`).

If the log is off, nothing is left of what a run says but its prompts.  There
is one of them for every record that was taken, and none without someone to
be prompted (`Program.text_off_remarks`).
-/

namespace Log

variable {log : Log} {options : Options} {program : Program}

@[simp]
theorem text_nil (log : Log) : log.text [] = "" := String.join_nil

theorem text_append (log : Log) (first second : List Remark) :
    log.text (first ++ second) = log.text first ++ log.text second := by
  simp only [text, List.map_append, String.join_append]

theorem eq_off_of_isSilent (silent : log.isSilent options = true) :
    log = off ∧ options.prompt = none := by
  cases log with
  | off => exact ⟨rfl, Option.isNone_iff_eq_none.mp silent⟩
  | on line => cases silent

/-- Nothing but empty lines. -/
theorem join_replicate_empty (count : Nat) : String.join (List.replicate count "") = "" := by
  induction count with
  | zero => rfl
  | succ count ih => rw [List.replicate_succ, String.join_cons, ih, String.append_empty]

theorem text_off_event (events : List LogEvent) : off.text (events.map .event) = "" := by
  have same : (events.map Remark.event).map off.word = List.replicate events.length "" := by
    rw [List.map_map]
    exact List.map_const' ..
  rw [text, same, join_replicate_empty]

/-- One step shows a prompt or nothing. -/
theorem text_off_step (run : Run) (options : Options) (program : Program) :
    off.text (run.remarks options program) =
      String.join (List.replicate (run.takes options program) (options.prompt.getD "")) := by
  rw [Run.remarks, text_append, text_off_event, String.append_empty, Run.asks]
  cases taking : run.takesRecord options program with
  | true =>
    rw [Run.takes_of_true taking, if_pos rfl]
    cases options.prompt <;> rfl
  | false =>
    rw [Run.takes_of_false taking]
    rfl

end Log

namespace Progress

variable {options : Options} {program : Program} {holds : Run → Bool} {progress : Progress}

@[simp]
theorem remarksUntil_zero (progress : Progress) :
    remarksUntil options program holds 0 progress = [] := by
  cases progress <;> rfl

@[simp]
theorem remarks_zero (progress : Progress) : remarks options program 0 progress = [] :=
  remarksUntil_zero progress

@[simp]
theorem remarks_ended (count : Nat) (how : Ending) (run : Run) :
    remarks options program count (ended how run) = [] := by
  cases count <;> rfl

@[simp]
theorem remarks_stuck (count : Nat) (why : Stuck) (run : Run) :
    remarks options program count (stuck why run) = [] := by
  cases count <;> rfl

theorem remarks_running (count : Nat) (run : Run) :
    remarks options program (count + 1) (running run) =
      run.remarks options program ++
        remarks options program count (run.advance options program) := rfl

/-- A run that is followed in two parts says what it says in the parts. -/
theorem remarks_add (first second : Nat) (progress : Progress) :
    remarks options program (first + second) progress =
      remarks options program first progress ++
        remarks options program second (iterate options program first progress) := by
  induction first generalizing progress with
  | zero => rw [Nat.zero_add, iterate_zero, remarks_zero, List.nil_append]
  | succ first ih =>
    rw [Nat.succ_add]
    cases progress with
    | running run => rw [remarks_running, remarks_running, ih, ← List.append_assoc]; rfl
    | ended how run => simp
    | stuck why run => simp

theorem remarks_succ (count : Nat) (progress : Progress) :
    remarks options program (count + 1) progress =
      remarks options program 1 progress ++
        remarks options program count (progress.advance options program) := by
  rw [Nat.add_comm, remarks_add, iterate_succ, iterate_zero]

/-- A run that nothing holds up says everything. -/
theorem remarksUntil_of_free {count : Nat}
    (free : ∀ moment run, iterate options program moment progress = running run →
      holds run = false) :
    remarksUntil options program holds count progress = remarks options program count progress := by
  induction count generalizing progress with
  | zero => cases progress <;> rfl
  | succ count ih =>
    cases progress with
    | running run =>
      have later := @ih (run.advance options program) fun moment => free (moment + 1)
      rw [remarksUntil, free 0 run rfl, if_neg Bool.false_ne_true, later, remarks_running]
    | ended how run => rfl
    | stuck why run => rfl

/-- Where nobody listens, nothing is said. -/
theorem text_off_remarksUntil (unprompted : options.prompt = none) (count : Nat)
    (progress : Progress) :
    Log.off.text (remarksUntil options program holds count progress) = "" := by
  induction count generalizing progress with
  | zero => cases progress <;> rfl
  | succ count ih =>
    cases progress with
    | running run =>
      rw [remarksUntil]
      split
      · rfl
      · rw [Log.text_append, ih, Log.text_off_step, unprompted, Option.getD_none,
          Log.join_replicate_empty]
        rfl
    | ended how run => rfl
    | stuck why run => rfl

/-- A run that is not asked would have nothing to say. -/
theorem saidUntil_eq (log : Log) (count : Nat) (progress : Progress) :
    progress.saidUntil log options program holds count =
      log.text (remarksUntil options program holds count progress) := by
  rw [saidUntil]
  split
  · next silent =>
    rcases Log.eq_off_of_isSilent silent with ⟨rfl, unprompted⟩
    exact (text_off_remarksUntil unprompted count progress).symm
  · rfl

/-- With the log off a run shows a prompt for every record that it takes. -/
theorem text_off_remarks (count : Nat) (progress : Progress) :
    Log.off.text (remarks options program count progress) =
      String.join (List.replicate (recordsTaken options program .silent count progress)
        (options.prompt.getD "")) := by
  induction count generalizing progress with
  | zero => cases progress <;> rfl
  | succ count ih =>
    cases progress with
    | running run =>
      rw [remarks_running, Log.text_append, ih, Log.text_off_step, recordsTaken,
        Run.signalled_silent, ← String.join_append, List.replicate_append_replicate]
    | ended how run => rfl
    | stuck why run => rfl

end Progress

namespace Program

variable {program : Program} {options : Options} {tape : Tape} {console : Console}

/-- Nothing is said after the end. -/
theorem remarks_of_ended {budget more : Nat} {how : Ending} {final : Run}
    (ends : program.execute options tape console budget = .ended how final)
    (within : budget ≤ more) :
    program.remarks options tape console more = program.remarks options tape console budget := by
  rcases Nat.exists_eq_add_of_le within with ⟨rest, rfl⟩
  rw [execute] at ends
  rw [remarks, Progress.remarks_add, ends, Progress.remarks_ended, List.append_nil, remarks]

/-- With the log off a program says what its prompts say. -/
theorem text_off_remarks (fresh : console.prompts = 0) (budget : Nat) :
    Log.off.text (program.remarks options tape console budget) =
      String.join (List.replicate
        (program.execute options tape console budget).run.console.prompts
        (options.prompt.getD "")) := by
  have shown := prompts_executeAmid program options tape console .silent budget
  rw [executeAmid_silent, fresh, Nat.zero_add] at shown
  rw [remarks, Progress.text_off_remarks, shown]
  cases options.prompt with
  | none =>
    simp only [Option.getD_none, Log.join_replicate_empty]
  | some text =>
    simp only [Option.isSome_some, Bool.toNat_true, Nat.one_mul, recordsTaken]

end Program
end RingTape
