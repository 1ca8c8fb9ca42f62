import RingTape.Proofs.Answers
import RingTape.Proofs.Stopping
import RingTape.Proofs.Verdicts

namespace RingTape
namespace CommandLine

/-!
# What a command says about its run

The run, the user, the clock and the waiting side of a command act in any
order.  They meet at one flag and one mailbox, and the flag does not tell who
raised it.  Still every answer tells the truth (`Job.truthful_watch`): that
the user interrupted is said only if the user did, that the deadline passed
only if it did, and everything else is what the run itself came to.  What is
written by then is a beginning of what the program writes if nobody disturbs
it.  And an answer does come: a result that is handed over while the waiting
side waits is the verdict of its next look, and no result is followed by more
than three looks without one.

The proof is one invariant (`Watch.Sound`).  The flag is up only because of
an interrupt or after the waiting side has made up its mind, the mailbox
holds the end of the run, and each stage of the waiting side has a reason
that no later event takes away.
-/

/-! ## What no event takes back -/

namespace Watch

variable {log : Log} {options : Options} {program : Program} {timeout : Option Nat}
  {watch : Watch}

theorem follow_append (first second : List Event) :
    watch.follow log options program timeout (first ++ second) =
      (watch.follow log options program timeout first).follow log options program timeout second :=
  List.foldl_append

theorem verdict?_eq_some_iff {verdict : Verdict} :
    watch.verdict? = some verdict ↔ watch.stage = .decided verdict := by
  unfold verdict?
  split
  · next given stage => rw [stage, Option.some_inj, Stage.decided.injEq]
  · next other =>
    refine ⟨nofun, fun decided => ?_⟩
    exact absurd decided (other verdict)

theorem look_of_decided {verdict : Verdict} (decided : watch.stage = .decided verdict) :
    watch.look timeout = watch := by
  simp only [look, decided]

/-- A verdict is final. -/
theorem decided_follow {verdict : Verdict} (decided : watch.stage = .decided verdict)
    (events : List Event) :
    (watch.follow log options program timeout events).stage = .decided verdict := by
  induction events generalizing watch with
  | nil => exact decided
  | cons event rest ih =>
    refine ih ?_
    cases event with
    | look => exact (congrArg stage (look_of_decided decided)).trans decided
    | work | deliver | interrupt | expire => exact decided

/-- By a look the waiting side moves on and touches nothing, unless it gives
up. -/
theorem look_eq (watch : Watch) (timeout : Option Nat) :
    (∃ stage, watch.look timeout = { watch with stage := stage }) ∨
      watch.look timeout =
        { watch with progress := watch.progress.raiseStop, stage := .decided .timedOut } := by
  unfold look
  split
  · split <;> exact .inl ⟨_, rfl⟩
  · split <;> exact .inl ⟨_, rfl⟩
  · split <;> exact .inl ⟨_, rfl⟩
  · exact .inr rfl
  · exact .inl ⟨watch.stage, rfl⟩

theorem happened_handle (event : Event) :
    (watch.handle log options program timeout event).interrupted =
        (watch.interrupted || .interrupt == event) ∧
      (watch.handle log options program timeout event).expired =
        (watch.expired || .expire == event) := by
  cases event with
  | work | deliver => exact ⟨(Bool.or_false _).symm, (Bool.or_false _).symm⟩
  | interrupt => exact ⟨(Bool.or_true _).symm, (Bool.or_false _).symm⟩
  | expire => exact ⟨(Bool.or_false _).symm, (Bool.or_true _).symm⟩
  | look =>
    rw [handle]
    rcases watch.look_eq timeout with ⟨stage, same⟩ | same <;> rw [same] <;>
      exact ⟨(Bool.or_false _).symm, (Bool.or_false _).symm⟩

/-- Nobody but the user interrupts, and no deadline passes by itself. -/
theorem happened_follow (events : List Event) :
    (watch.follow log options program timeout events).interrupted =
        (watch.interrupted || events.contains .interrupt) ∧
      (watch.follow log options program timeout events).expired =
        (watch.expired || events.contains .expire) := by
  induction events generalizing watch with
  | nil => exact ⟨(Bool.or_false _).symm, (Bool.or_false _).symm⟩
  | cons event rest ih =>
    have first : _ ∧ _ := @happened_handle log options program timeout watch event
    rw [List.contains_cons, List.contains_cons, ← Bool.or_assoc, ← Bool.or_assoc, ← first.1,
      ← first.2]
    exact ih

/-- What has happened before, has happened. -/
structure Extends (before after : Watch) : Prop where
  ended : ∀ how final, before.progress = .ended how final →
    ∃ later, after.progress = .ended how later
  interrupted : before.interrupted = true → after.interrupted = true
  expired : before.expired = true → after.expired = true

theorem ended_raiseStop {progress : Progress} {how : Ending} {final : Run}
    (ends : progress = .ended how final) : ∃ later, progress.raiseStop = .ended how later := by
  rw [ends]
  exact ⟨_, rfl⟩

theorem extends_handle (event : Event) :
    watch.Extends (watch.handle log options program timeout event) := by
  have same : watch.Extends watch := ⟨fun _ final ends => ⟨final, ends⟩, id, id⟩
  cases event with
  | work =>
    refine ⟨fun how final ends => ⟨final, ?_⟩, id, id⟩
    change watch.progress.advance options program = _
    rw [ends]
    rfl
  | deliver => exact ⟨same.ended, id, id⟩
  | interrupt => exact ⟨fun _ _ => ended_raiseStop, fun _ => rfl, id⟩
  | expire => exact ⟨same.ended, id, fun _ => rfl⟩
  | look =>
    rw [handle]
    rcases watch.look_eq timeout with ⟨stage, moved⟩ | moved <;> rw [moved]
    · exact ⟨same.ended, id, id⟩
    · exact ⟨fun _ _ => ended_raiseStop, id, id⟩

/-! ## From the mailbox to the verdict -/

/-- What is in the mailbox stays there. -/
theorem mailbox_handle {verdict : Verdict} (full : watch.mailbox = some verdict)
    (event : Event) : (watch.handle log options program timeout event).mailbox = some verdict := by
  cases event with
  | work | interrupt | expire => exact full
  | deliver =>
    rw [handle, full]
    rfl
  | look =>
    rw [handle]
    rcases watch.look_eq timeout with ⟨stage, same⟩ | same <;> rw [same] <;> exact full

theorem stage_handle {event : Event} (other : event ≠ .look) :
    (watch.handle log options program timeout event).stage = watch.stage := by
  cases event with
  | look => exact absurd rfl other
  | work | deliver | interrupt | expire => rfl

/-- Until the next look nothing happens to someone who waits. -/
theorem waits_follow {verdict : Verdict} (full : watch.mailbox = some verdict)
    {events : List Event} (unseen : .look ∉ events) :
    (watch.follow log options program timeout events).mailbox = some verdict ∧
      (watch.follow log options program timeout events).stage = watch.stage := by
  induction events generalizing watch with
  | nil => exact ⟨full, rfl⟩
  | cons event rest ih =>
    rcases List.ne_and_not_mem_of_not_mem_cons unseen with ⟨other, unseen⟩
    have kept := @stage_handle log options program timeout watch event other.symm
    rw [← kept]
    exact ih (mailbox_handle full event) unseen

/-- A result that lies there while the waiting side waits is its verdict. -/
theorem decided_of_mailbox {verdict : Verdict} (full : watch.mailbox = some verdict)
    (waits : watch.stage = .waiting) {between : List Event} (unseen : .look ∉ between)
    (later : List Event) :
    (watch.follow log options program timeout (between ++ .look :: later)).stage =
      .decided verdict := by
  rcases @waits_follow log options program timeout watch _ full _ unseen with ⟨lies, still⟩
  rw [waits] at still
  rw [follow_append]
  refine decided_follow ?_ later
  rw [handle, look, still, lies]

/-- The looks from a stage to a verdict, once there is a result. -/
def looksLeft : Stage → Nat
  | .waiting | .givingUp => 1
  | .beforeFlag => 3
  | .beforeClock => 2
  | .decided _ => 0

theorem looksLeft_le (stage : Stage) : looksLeft stage ≤ 3 := by
  cases stage <;> simp [looksLeft]

/-- Every look brings the verdict nearer. -/
theorem looksLeft_look {verdict : Verdict} (full : watch.mailbox = some verdict)
    (timeout : Option Nat) :
    looksLeft (watch.look timeout).stage ≤ looksLeft watch.stage - 1 := by
  rw [look, full]
  cases stage : watch.stage with
  | waiting | givingUp => exact Nat.le_refl 0
  | beforeFlag =>
    dsimp only
    split
    · exact Nat.zero_le 2
    · exact Nat.le_refl 2
  | beforeClock =>
    dsimp only
    split <;> exact Nat.le_refl 1
  | decided verdict =>
    dsimp only
    rw [stage]
    exact Nat.le_refl 0

/-- After so many looks there is one. -/
theorem exists_decided_of_looks {verdict : Verdict} (full : watch.mailbox = some verdict)
    {events : List Event} (enough : looksLeft watch.stage ≤ events.count .look) :
    ∃ verdict, (watch.follow log options program timeout events).stage = .decided verdict := by
  induction events generalizing watch with
  | nil =>
    cases stage : watch.stage with
    | decided verdict => exact ⟨verdict, stage⟩
    | waiting | beforeFlag | beforeClock | givingUp =>
      rw [stage] at enough
      exact absurd enough (by decide)
  | cons event rest ih =>
    refine ih (mailbox_handle full event) ?_
    rw [List.count_cons] at enough
    by_cases looks : event = .look
    · subst looks
      have nearer := looksLeft_look full timeout
      rw [handle]
      simp only [beq_self_eq_true, if_true] at enough
      omega
    · rw [stage_handle looks]
      rw [beq_false_of_ne looks] at enough
      exact enough

/-! ## The invariant -/

/-- What a verdict is due to. -/
def Justifies (watch : Watch) (timeout : Option Nat) : Verdict → Prop
  | .result how =>
    (∃ final, watch.progress = .ended how final) ∧
      (how = .interrupted → watch.interrupted = true)
  | .interrupted => watch.interrupted = true
  | .timedOut => timeout.isSome = true ∧ watch.expired = true
  | .lost => False

/-- What brings the waiting side to a stage. -/
def Admits (watch : Watch) (timeout : Option Nat) : Stage → Prop
  | .waiting | .beforeFlag | .beforeClock => True
  | .givingUp => timeout.isSome = true ∧ watch.expired = true
  | .decided verdict => watch.Justifies timeout verdict

theorem Justifies.of_extends {before after : Watch} {verdict : Verdict}
    (justifies : before.Justifies timeout verdict) (more : before.Extends after) :
    after.Justifies timeout verdict := by
  cases verdict with
  | result how =>
    rcases justifies with ⟨⟨final, ends⟩, explained⟩
    exact ⟨more.ended how final ends, more.interrupted ∘ explained⟩
  | interrupted => exact more.interrupted justifies
  | timedOut => exact ⟨justifies.1, more.expired justifies.2⟩
  | lost => exact justifies

theorem Admits.of_extends {before after : Watch} {stage : Stage}
    (admits : before.Admits timeout stage) (more : before.Extends after) :
    after.Admits timeout stage := by
  cases stage with
  | waiting | beforeFlag | beforeClock => trivial
  | givingUp => exact ⟨admits.1, more.expired admits.2⟩
  | decided verdict => exact Justifies.of_extends admits more

/-- How the parties stand to each other, if the run has had time for so many
instructions. -/
structure Sound (undisturbed : Nat → Progress) (timeout : Option Nat) (worked : Nat)
    (watch : Watch) : Prop where
  trails : watch.progress.Trails undisturbed worked
  flag : watch.progress.run.console.stopped = true →
    watch.interrupted = true ∨ watch.stage = .decided .timedOut
  mail : ∀ verdict ∈ watch.mailbox, ∃ how final,
    watch.progress = .ended how final ∧ verdict = .result how
  stage : watch.Admits timeout watch.stage

/-- A run that is over hands over how it ended. -/
theorem Sound.mailbox_deliver {undisturbed : Nat → Progress} {worked : Nat}
    (sound : watch.Sound undisturbed timeout worked) {how : Ending} {final : Run}
    (ends : watch.progress = .ended how final) :
    (watch.handle log options program timeout .deliver).mailbox = some (.result how) := by
  rw [handle, ends]
  cases held : watch.mailbox with
  | none => rfl
  | some verdict =>
    rcases sound.mail verdict held with ⟨how', final', ends', rfl⟩
    cases ends.symm.trans ends'
    rfl

section Steps

variable {tape : Tape} {console : Console} {worked : Nat}

/-- The mailbox still holds the end of the run. -/
theorem Sound.mail_of_extends {undisturbed : Nat → Progress} {after : Watch}
    (sound : watch.Sound undisturbed timeout worked) (more : watch.Extends after) :
    ∀ verdict ∈ watch.mailbox, ∃ how final,
      after.progress = .ended how final ∧ verdict = .result how := by
  intro verdict held
  rcases sound.mail verdict held with ⟨how, final, ends, rfl⟩
  rcases more.ended how final ends with ⟨later, stillEnds⟩
  exact ⟨how, later, stillEnds, rfl⟩

/-- Until the waiting side has made up its mind, only the user has raised the
flag. -/
theorem Sound.interrupted_of_stopped {undisturbed : Nat → Progress}
    (sound : watch.Sound undisturbed timeout worked)
    (undecided : ∀ verdict, watch.stage ≠ .decided verdict)
    (up : watch.progress.run.console.stopped = true) : watch.interrupted = true :=
  (sound.flag up).resolve_right (undecided .timedOut)

theorem Sound.look (calm : console.Unstoppable)
    (sound : watch.Sound (program.execute options tape console) timeout worked) :
    (watch.look timeout).Sound (program.execute options tape console) timeout worked := by
  have blame := sound.interrupted_of_stopped
  have admits := sound.stage
  unfold Watch.look
  split
  · next waits =>
    rw [waits] at blame
    split
    · next verdict held =>
      rcases sound.mail verdict held with ⟨how, final, ends, rfl⟩
      refine ⟨sound.trails, fun up => .inl (blame nofun up), sound.mail, ⟨final, ends⟩, ?_⟩
      intro stopped
      exact blame nofun (sound.trails.stopped_of_interrupted calm (stopped ▸ ends))
    · exact ⟨sound.trails, fun up => .inl (blame nofun up), sound.mail, trivial⟩
  · next looks =>
    rw [looks] at blame
    split
    · next up => exact ⟨sound.trails, fun _ => .inl (blame nofun up), sound.mail, blame nofun up⟩
    · exact ⟨sound.trails, fun up => .inl (blame nofun up), sound.mail, trivial⟩
  · next looks =>
    rw [looks] at blame
    split
    · next late =>
      exact ⟨sound.trails, fun up => .inl (blame nofun up), sound.mail,
        Bool.and_eq_true_iff.mp late⟩
    · exact ⟨sound.trails, fun up => .inl (blame nofun up), sound.mail, trivial⟩
  · next givesUp =>
    rw [givesUp] at admits
    exact ⟨sound.trails.raiseStop, fun _ => .inr rfl,
      sound.mail_of_extends ⟨fun _ _ => ended_raiseStop, id, id⟩, admits⟩
  · exact sound

/-- Every event leaves the parties in this order. -/
theorem Sound.handle (balanced : Program.Balanced program.toList) (calm : console.Unstoppable)
    (sound : watch.Sound (program.execute options tape console) timeout worked)
    (event : Event) :
    (watch.handle log options program timeout event).Sound (program.execute options tape console)
      timeout (worked + [event].count .work) := by
  have more : watch.Extends (watch.handle log options program timeout event) := extends_handle event
  have mail := sound.mail_of_extends more
  have admits := sound.stage.of_extends more
  cases event with
  | work =>
    exact ⟨sound.trails.advance, fun up => sound.flag (sound.trails.stopped_of_advance calm up),
      mail, admits⟩
  | deliver =>
    refine ⟨sound.trails, sound.flag, fun verdict held => ?_, admits⟩
    rcases Option.or_eq_some_iff.mp held with before | ⟨-, given⟩
    · exact mail verdict before
    · cases reached : watch.progress with
      | running run => rw [reached] at given; cases given
      | ended how final =>
        rw [reached] at given
        exact ⟨how, final, reached, (Option.some.inj given).symm⟩
      | stuck why run => exact absurd reached (sound.trails.ne_stuck balanced why run)
  | interrupt => exact ⟨sound.trails.raiseStop, fun _ => .inl rfl, mail, admits⟩
  | expire => exact ⟨sound.trails, sound.flag, mail, admits⟩
  | look => exact sound.look calm

/-- And so does every list of events. -/
theorem Sound.follow (balanced : Program.Balanced program.toList) (calm : console.Unstoppable)
    (sound : watch.Sound (program.execute options tape console) timeout worked)
    (events : List Event) :
    (watch.follow log options program timeout events).Sound (program.execute options tape console)
      timeout (worked + events.count .work) := by
  induction events generalizing watch worked with
  | nil => exact sound
  | cons event rest ih =>
    rw [← List.singleton_append, List.count_append, ← Nat.add_assoc]
    exact ih (sound.handle balanced calm event)

end Steps
end Watch

/-! ## The answer -/

namespace Job

/-- The command of a job after some events, the first of which find its run
begun. -/
def watch (job : Job) (log : Log) (console : Console) (events : List Event) : Watch :=
  Watch.follow log job.options job.program job.timeout
    { progress := Run.begin job.options job.tape console } events

/-- What the command of a job says and what it leaves behind agrees with the
events and with the undisturbed run, and what the run hands over is said. -/
structure Truthful (job : Job) (surroundings : Surroundings) (console : Console)
    (events : List Event) : Prop where
  /-- The interrupt notice needs an interrupt by the user. -/
  notice : ∀ answer,
    job.answerOf surroundings (job.watch surroundings.log console events) = some answer →
    answer.report = job.wording surroundings .interrupted →
      answer.code = 0 ∧ .interrupt ∈ events
  /-- The report of a timeout needs a timeout, and a deadline that passed. -/
  timeout : ∀ answer,
    job.answerOf surroundings (job.watch surroundings.log console events) = some answer →
    answer.report = job.wording surroundings .timedOut →
      answer.code = 1 ∧ (∃ time, job.timeout = some time) ∧ .expire ∈ events
  /-- Once the waiting side has raised the flag by itself, it says so. -/
  givenUp : ∀ earlier later, events = earlier ++ .look :: later →
    (job.watch surroundings.log console earlier).stage = .givingUp →
      ∃ answer,
        job.answerOf surroundings (job.watch surroundings.log console events) = some answer ∧
        answer.report = job.wording surroundings .timedOut ∧
        answer.report ≠ job.wording surroundings .interrupted
  /-- Anything else is said of the end that the run came to, and without an
  interrupt that is the end of the undisturbed run. -/
  own : ∀ answer,
    job.answerOf surroundings (job.watch surroundings.log console events) = some answer →
    answer.report ≠ job.wording surroundings .interrupted →
    answer.report ≠ job.wording surroundings .timedOut →
      ∃ how final,
        (job.watch surroundings.log console events).progress = .ended how final ∧
        answer.code = (Verdict.result how).code ∧
        answer.report = job.wording surroundings (.result how) ∧
        (.interrupt ∉ events → ∀ budget, events.count .work ≤ budget →
          job.program.execute job.options job.tape console budget = .ended how final)
  /-- How the run ended is said at the next look, if the run hands it over
  while the waiting side waits. -/
  delivered : ∀ earlier between later how final,
    events = earlier ++ .deliver :: (between ++ .look :: later) → .look ∉ between →
    (job.watch surroundings.log console earlier).stage = .waiting →
    (job.watch surroundings.log console earlier).progress = .ended how final →
      ∃ answer,
        job.answerOf surroundings (job.watch surroundings.log console events) = some answer ∧
        answer.code = (Verdict.result how).code ∧
        answer.report = job.wording surroundings (.result how)
  /-- At any rate three looks after that bring an answer. -/
  answered : ∀ earlier later how final, events = earlier ++ .deliver :: later →
    (job.watch surroundings.log console earlier).progress = .ended how final →
    3 ≤ later.count .look →
      ∃ answer,
        job.answerOf surroundings (job.watch surroundings.log console events) = some answer
  /-- Whatever part of its output the run has got out by now, the undisturbed
  run begins with it. -/
  output : ∀ shown,
    shown <+: (job.watch surroundings.log console events).progress.written.toList →
    ∀ budget, events.count .work ≤ budget →
      shown <+: (job.program.execute job.options job.tape console budget).written.toList

section

variable {job : Job} {surroundings : Surroundings} {console : Console} {events : List Event}

theorem sound_watch {source : String} (parsed : Program.parse source = .ok job.program)
    (calm : console.Unstoppable) (log : Log) (events : List Event) :
    (job.watch log console events).Sound (job.program.execute job.options job.tape console)
      job.timeout (events.count .work) := by
  have start : Watch.Sound (job.program.execute job.options job.tape console) job.timeout 0
      { progress := Run.begin job.options job.tape console } := by
    refine ⟨.begin .., fun up => ?_, nofun, trivial⟩
    have fresh := Console.law_unstoppable.of_execute calm job.program job.options job.tape 0
    rw [Program.execute_zero] at fresh
    cases fresh.stopped.symm.trans up
  have kept := @Watch.Sound.follow log _ _ _ _ _ _ _ (Program.balanced_of_parse parsed) calm
    start events
  rw [Nat.zero_add] at kept
  exact kept

theorem exists_verdict {watch : Watch} {answer : Answer}
    (given : job.answerOf surroundings watch = some answer) :
    ∃ verdict, watch.stage = .decided verdict ∧ answer.code = verdict.code ∧
      answer.report = job.wording surroundings verdict := by
  rcases Option.map_eq_some_iff.mp given with ⟨verdict, decided, rfl⟩
  exact ⟨verdict, Watch.verdict?_eq_some_iff.mp decided, rfl, rfl⟩

theorem exists_answer {watch : Watch} {verdict : Verdict}
    (decided : watch.stage = .decided verdict) :
    ∃ answer, job.answerOf surroundings watch = some answer ∧ answer.code = verdict.code ∧
      answer.report = job.wording surroundings verdict :=
  ⟨_, congrArg (Option.map _) (Watch.verdict?_eq_some_iff.mpr decided), rfl, rfl⟩

theorem watch_append (job : Job) (log : Log) (console : Console) (first second : List Event) :
    job.watch log console (first ++ second) =
      (job.watch log console first).follow log job.options job.program job.timeout second :=
  Watch.follow_append first second

theorem interrupt_mem_of_interrupted {log : Log}
    (happened : (job.watch log console events).interrupted = true) : .interrupt ∈ events := by
  rw [watch, (Watch.happened_follow events).1] at happened
  exact List.contains_iff_mem.mp happened

theorem expire_mem_of_expired {log : Log}
    (happened : (job.watch log console events).expired = true) : .expire ∈ events := by
  rw [watch, (Watch.happened_follow events).2] at happened
  exact List.contains_iff_mem.mp happened

/-- While the flag is down, the run is the undisturbed one. -/
theorem execute_of_ended_down {source : String}
    (parsed : Program.parse source = .ok job.program) (calm : console.Unstoppable) {log : Log}
    {how : Ending} {final : Run} {budget : Nat}
    (down : (job.watch log console events).progress.run.console.stopped = false)
    (ends : (job.watch log console events).progress = .ended how final)
    (enough : events.count .work ≤ budget) :
    job.program.execute job.options job.tape console budget = .ended how final :=
  Program.execute_of_le enough
    (((sound_watch parsed calm log events).trails.eq_of_down down).symm.trans ends)

/-- In whatever order the run, the user, the clock and the waiting side act,
the command never misreports how its run ended, and it does report it. -/
theorem truthful_watch {source : String} (parsed : Program.parse source = .ok job.program)
    (calm : console.Unstoppable) (surroundings : Surroundings) (events : List Event) :
    job.Truthful surroundings console events := by
  have sound := sound_watch parsed calm surroundings.log events
  have handsOver {earlier : List Event} {how : Ending} {final : Run}
      (ends : (job.watch surroundings.log console earlier).progress = .ended how final) :=
    @Watch.Sound.mailbox_deliver surroundings.log job.options job.program _ _ _ _
      (sound_watch parsed calm surroundings.log earlier) _ _ ends
  have admits := sound.stage
  constructor
  case notice =>
    intro answer given noticed
    rcases exists_verdict given with ⟨verdict, decided, coded, reported⟩
    rw [decided] at admits
    rcases Verdict.eq_of_report_interrupted (reported.symm.trans noticed) with rfl | rfl
    · exact ⟨coded, interrupt_mem_of_interrupted admits⟩
    · exact ⟨coded, interrupt_mem_of_interrupted (admits.2 rfl)⟩
  case timeout =>
    intro answer given noticed
    rcases exists_verdict given with ⟨verdict, decided, coded, reported⟩
    rw [decided] at admits
    cases Verdict.eq_of_report_timedOut (reported.symm.trans noticed)
    exact ⟨coded, Option.isSome_iff_exists.mp admits.1, expire_mem_of_expired admits.2⟩
  case givenUp =>
    rintro earlier later rfl givesUp
    have raised : ((job.watch surroundings.log console earlier).look job.timeout).stage =
        .decided .timedOut := by
      simp only [Watch.look, givesUp]
    have decided : (job.watch surroundings.log console (earlier ++ .look :: later)).stage =
        .decided .timedOut := by
      rw [watch_append]
      exact Watch.decided_follow raised later
    rcases exists_answer decided with ⟨answer, given, -, reported⟩
    refine ⟨answer, given, reported, fun noticed => ?_⟩
    rcases Verdict.eq_of_report_interrupted (reported.symm.trans noticed) with
      impossible | impossible <;> cases impossible
  case own =>
    intro answer given unnoticed timely
    rcases exists_verdict given with ⟨verdict, decided, coded, reported⟩
    have flag := sound.flag
    rw [decided] at admits flag
    cases verdict with
    | result how =>
      rcases admits with ⟨⟨final, ends⟩, -⟩
      refine ⟨how, final, ends, coded, reported, fun uninterrupted budget enough => ?_⟩
      have down :
          (job.watch surroundings.log console events).progress.run.console.stopped = false := by
        refine Bool.eq_false_iff.mpr fun up => ?_
        rcases flag up with happened | impossible
        · exact uninterrupted (interrupt_mem_of_interrupted happened)
        · cases impossible
      exact execute_of_ended_down parsed calm down ends enough
    | interrupted => exact absurd reported unnoticed
    | timedOut => exact absurd reported timely
    | lost => exact admits.elim
  case delivered =>
    rintro earlier between later how final rfl unseen waits ends
    have decided := @Watch.decided_of_mailbox surroundings.log job.options job.program
      job.timeout _ _ (handsOver ends) waits _ unseen later
    apply exists_answer
    rw [watch_append]
    exact decided
  case answered =>
    rintro earlier later how final rfl ends enough
    rcases @Watch.exists_decided_of_looks surroundings.log job.options job.program job.timeout _ _
      (handsOver ends) later (Nat.le_trans (Watch.looksLeft_le _) enough) with
      ⟨verdict, decided⟩
    rw [watch_append]
    rcases exists_answer decided with ⟨answer, given, -, -⟩
    exact ⟨answer, given⟩
  case output =>
    intro shown begins budget enough
    exact begins.trans (sound.trails.written_prefix enough)

/-- A loop without end, under a deadline. -/
def endless : Job where
  program := #[.command .increment, .loopStart, .loopEnd]
  lines := 1
  tape := ⟨#[0], 0, by decide⟩
  options := {}
  timeout := some 5
  color := false

/-- A number and no more. -/
def brief : Job where
  program := #[.command .increment, .command .output]
  lines := 1
  tape := ⟨#[0], 0, by decide⟩
  options := { mode := .numeric }
  timeout := none
  color := false

/-- The deadline of the loop passes, and before the run notices the raised
flag, the user interrupts as well.  A run that is over has handed over its
result before the user interrupts, and that is what is said. -/
theorem truthful_endless_and_brief :
    let surroundings : Surroundings :=
      { program := "bftape", environment := fun _ => none, file? := fun _ => none }
    let late : List Event :=
      [.work, .expire, .look, .look, .look, .look, .interrupt, .work, .deliver, .look]
    let timely : List Event :=
      [.look, .look, .look, .work, .work, .work, .deliver, .interrupt, .look]
    Program.parse "+[]" = .ok endless.program ∧
    endless.Truthful surroundings {} late ∧
    endless.answerOf surroundings (endless.watch surroundings.log {} late) =
      some ⟨1, [], "", "Execution aborted: wall-clock timeout exceeded (5 ms)\n"⟩ ∧
    Program.parse "+." = .ok brief.program ∧
    brief.Truthful surroundings {} timely ∧
    brief.answerOf surroundings (brief.watch surroundings.log {} timely) =
      some ⟨0, Text.encode "1\nDone!\n", "", ""⟩ := by
  intro surroundings late timely
  have parsedEndless : Program.parse "+[]" = .ok endless.program := rfl
  have parsedBrief : Program.parse "+." = .ok brief.program := rfl
  refine ⟨parsedEndless, truthful_watch parsedEndless ⟨rfl, rfl⟩ surroundings late, ?_,
    parsedBrief, truthful_watch parsedBrief ⟨rfl, rfl⟩ surroundings timely, ?_⟩
  · decide +kernel
  · decide +kernel

end

/-! ## Answers among all courses -/

section

variable {log : Log} {options : Options} {program : Program}

/-- What a run does and says by working on. -/
theorem follow_work (timeout : Option Nat) (count : Nat) (watch : Watch) :
    watch.follow log options program timeout (List.replicate count .work) =
      { watch with
        progress := watch.progress.iterate options program count
        said := watch.said ++ log.text (watch.progress.remarks options program count) } := by
  induction count generalizing watch with
  | zero =>
    rw [Progress.iterate_zero, Progress.remarks_zero, Log.text_nil, String.append_empty]
    rfl
  | succ count ih =>
    have worked : watch.handle log options program timeout .work =
        { watch with
          progress := watch.progress.advance options program
          said := watch.said ++ log.text (watch.progress.remarks options program 1) } := by
      rw [Watch.handle, Progress.saidUntil_eq]
      rfl
    rw [List.replicate_succ, Watch.follow, List.foldl_cons, ← Watch.follow, worked, ih,
      Progress.iterate_succ, Progress.remarks_succ count watch.progress, Log.text_append,
      ← String.append_assoc]

/-- To pursue a run is to let it work for some time. -/
theorem exists_follow_of_pursue (timeout : Option Nat) (holds : Run → Bool) (count : Nat)
    (watch : Watch) :
    ∃ moment, watch.pursue log options program holds count =
      watch.follow log options program timeout (List.replicate moment .work) := by
  rcases @Progress.exists_iterate_of_iterateUntil options program holds count watch.progress with
    ⟨moment, reached, said⟩
  refine ⟨moment, ?_⟩
  rw [Watch.pursue, Progress.saidUntil_eq, follow_work, reached, said]

end

/-- Whatever the circumstances, the answer of the command is the answer to
some order of events. -/
theorem exists_watch_of_answer (job : Job) (surroundings : Surroundings)
    (circumstances : Circumstances) :
    ∃ events, job.answer surroundings circumstances =
      job.answerOf surroundings
        (job.watch surroundings.log (console circumstances) events) := by
  have pursued : ∃ events, job.pursuit surroundings circumstances =
      job.watch surroundings.log (console circumstances) events := by
    rw [pursuit]
    rcases exists_follow_of_pursue job.timeout _ _ _ with ⟨later, behind⟩
    rcases exists_follow_of_pursue job.timeout _ _ _ with ⟨earlier, before⟩
    refine ⟨List.replicate earlier .work ++ List.replicate later .work, behind.trans ?_⟩
    rw [watch_append, watch, before]
  rcases pursued with ⟨events, reached⟩
  refine ⟨events ++ job.sequel circumstances (job.pursuit surroundings circumstances).progress, ?_⟩
  rw [answer, watch_append, reached]

end Job
end CommandLine
end RingTape
