import Mathlib.Data.Nat.Find
import RingTape.Proofs.DeadLoops
import RingTape.Proofs.Strokes

namespace RingTape

/-!
# Loops that count

A loop around a row of strokes that leaves the pointer where it was adds the
same to every cell in every pass.  So the cell that decides about another
pass runs through an arithmetic progression modulo 256, and the loop comes
to an end if and only if this progression meets zero.  It may wrap around
many times before that, and on a short ring some cells are reached by
several ways.

A run of the loop is followed from one test of the cell to the next.  The
first test is made at the opening bracket and all later ones at the closing
bracket, but both do the same: they lead into the body with one loop open,
or behind the program with none (`Machine.exists_tested`).
-/

open Stroke (displacement gain)

namespace Tape

/-- A tape after so many passes through the strokes. -/
def rounds (strokes : List Stroke) (tape : Tape) : Nat → Tape
  | 0 => tape
  | passes + 1 => (tape.rounds strokes passes).follow strokes

variable {strokes : List Stroke} {tape : Tape}

theorem length_rounds (passes : Nat) : (tape.rounds strokes passes).length = tape.length := by
  induction passes with
  | zero => rfl
  | succ passes ih => exact (length_follow _ _).trans ih

section Closed

variable (closed : displacement strokes % tape.length = 0)

include closed

theorem pointer_rounds (passes : Nat) :
    (tape.rounds strokes passes).pointer = tape.pointer := by
  induction passes with
  | zero => rfl
  | succ passes ih =>
    have around : ((tape.rounds strokes (passes + 1)).pointer : Int) = tape.pointer := by
      rw [rounds, pointer_follow, ih, length_rounds, Int.add_emod, closed, Int.add_zero,
        Int.emod_emod, pointer_emod]
    exact Int.ofNat_inj.mp around

/-- Every pass adds the same to a cell. -/
theorem getElem?_rounds (passes index : Nat) :
    (tape.rounds strokes passes).cells[index]? =
      tape.cells[index]?.map fun cell =>
        cell + UInt8.ofInt (passes * gain tape.length tape.pointer index strokes) := by
  induction passes with
  | zero =>
    refine ((Option.map_congr fun cell _ => ?_).trans Option.map_id').symm
    rw [Int.natCast_zero, Int.zero_mul]
    exact UInt8.add_zero cell
  | succ passes ih =>
    rw [rounds, getElem?_follow, ih, Option.map_map, length_rounds, pointer_rounds closed]
    refine Option.map_congr fun cell _ => ?_
    rw [Function.comp_apply, UInt8.add_assoc, ← UInt8.ofInt_add, Int.natCast_succ, Int.add_mul,
      Int.one_mul]

/-- The tests of the loop find zero when the progression meets it. -/
theorem current_rounds_eq_zero_iff (passes : Nat) :
    (tape.rounds strokes passes).current = 0 ↔ tape.ClearedBy strokes passes := by
  have cell : (tape.rounds strokes passes).current = tape.current +
      UInt8.ofInt (passes * gain tape.length tape.pointer tape.pointer strokes) := by
    refine Option.some.inj ?_
    rw [current_eq, pointer_rounds closed, getElem?_rounds closed, ← current_eq, Option.map_some]
  rw [cell, ClearedBy]

end Closed
end Tape

namespace Program

variable (body : List Stroke)

/-- A loop as a filled program, so that what is known of those applies. -/
theorem ofLoop_eq_fill :
    ofLoop body = fill [] [] (enclose (body.map fun stroke => .command stroke.command)) := by
  rw [fill, List.append_nil]
  rfl

theorem getElem?_ofLoop_body {index : Nat} {stroke : Stroke}
    (found : body[index]? = some stroke) :
    (ofLoop body)[1 + index]? = some (.command stroke.command) := by
  have inside : index < (body.map fun stroke => Instruction.command stroke.command).length := by
    rw [List.length_map]
    exact (List.getElem?_eq_some_iff.mp found).1
  rw [ofLoop, List.getElem?_toArray, Nat.add_comm, List.getElem?_cons_succ,
    List.getElem?_append_left inside, List.getElem?_map, found]
  rfl

theorem getElem?_ofLoop_end : (ofLoop body)[body.length + 1]? = some .loopEnd := by
  have length : (body.map fun stroke => Instruction.command stroke.command).length =
      body.length := List.length_map _
  rw [ofLoop, List.getElem?_toArray, List.getElem?_cons_succ, ← length,
    List.getElem?_concat_length]

theorem size_ofLoop : (ofLoop body).size = body.length + 2 := by
  simp [ofLoop]

theorem matchingEnd?_ofLoop : (ofLoop body).matchingEnd? 0 = some (body.length + 1) := by
  rw [ofLoop_eq_fill]
  refine (matchingEnd?_fill [] [] (balanced_map_command body)).trans ?_
  rw [List.length_map, List.length_nil, Nat.zero_add]

/-- The characters of a loop around strokes are a program. -/
theorem parse_render_ofLoop : parse (ofLoop body).render = .ok (ofLoop body) := by
  rw [parse_eq_ok_iff, render, String.toList_ofList, filterMap_map_toChar]
  exact ⟨(balanced_map_command body).enclose, rfl⟩

end Program

namespace Machine

open Program (ofLoop)

/-- A machine that is about to test the cell after so many passes: at the
beginning of the loop before the first one, and at its end after that. -/
def atTest (body : List Stroke) (tape : Tape) : Nat → Machine
  | 0 => .load tape
  | passes + 1 => ⟨body.length + 1, [0], tape.rounds body (passes + 1)⟩

/-- A test leads behind the loop if the cell is zero, and otherwise into its
body, with the loop entered once. -/
theorem exists_tested (body : List Stroke) (tape : Tape) (passes : Nat) :
    ∃ instruction, (ofLoop body)[(atTest body tape passes).position]? = some instruction ∧
      instruction ≠ .command .output ∧ instruction ≠ .command .input ∧
      ∀ supplied, (atTest body tape passes).step (ofLoop body) instruction supplied =
        .ok (if (tape.rounds body passes).current = 0 then
          ⟨body.length + 2, [], tape.rounds body passes⟩
        else ⟨1, [0], tape.rounds body passes⟩) := by
  cases passes with
  | zero =>
    refine ⟨.loopStart, rfl, by decide, by decide, fun supplied => ?_⟩
    have close := Program.matchingEnd?_ofLoop body
    by_cases zero : tape.current = 0
    · simp only [atTest, step, load, Tape.rounds, zero, close, if_true]
    · simp only [atTest, step, load, Tape.rounds, zero, if_false, Nat.zero_add]
  | succ passes =>
    refine ⟨.loopEnd, Program.getElem?_ofLoop_end body, by decide, by decide, fun supplied => ?_⟩
    by_cases zero : (tape.rounds body (passes + 1)).current = 0
    · simp only [atTest, step, zero, if_true, List.tail_cons]
    · simp only [atTest, step, zero, if_false, Nat.zero_add]

end Machine

namespace Program

open Machine (atTest)
open Progress (running ended)

variable {body : List Stroke} {tape : Tape} {console : Console}

/-- A test that does not find zero and the pass behind it lead to the next
test. -/
theorem exists_passed (options : Options) (passes steps : Nat) (good : console.Undisturbed)
    (nonzero : (tape.rounds body passes).current ≠ 0) :
    ∃ after : Console, after.Undisturbed ∧
      Progress.iterate (options.withLimit none) (ofLoop body) (body.length + 1)
          (running ⟨atTest body tape passes, steps, console⟩) =
        running ⟨atTest body tape (passes + 1), steps + (body.length + 1), after⟩ := by
  rcases Machine.exists_tested body tape passes with ⟨test, here, noOutput, noInput, stepped⟩
  simp only [nonzero, if_false] at stepped
  rcases @Run.exists_advanced ⟨atTest body tape passes, steps, console⟩ _ _ _ good options here
    noOutput noInput stepped with ⟨inside, kept, enters⟩
  rcases Progress.exists_followed (fun _ _ found => getElem?_ofLoop_body body found) options [0]
    (tape.rounds body passes) (steps + 1) kept with ⟨after, still, follows⟩
  refine ⟨after, still, ?_⟩
  have place : 1 + body.length = body.length + 1 := Nat.add_comm _ _
  have count : steps + 1 + body.length = steps + (body.length + 1) := by omega
  rw [Progress.iterate, enters, follows, place, count]
  rfl

/-- As long as no test finds zero, one pass follows the other. -/
theorem exists_rounds (options : Options) (tape : Tape) (good : console.Undisturbed)
    {passes : Nat} (nonzero : ∀ fewer < passes, (tape.rounds body fewer).current ≠ 0) :
    ∃ after : Console, after.Undisturbed ∧
      (ofLoop body).execute (options.withLimit none) tape console (passes * (body.length + 1)) =
        running ⟨atTest body tape passes, passes * (body.length + 1), after⟩ := by
  induction passes with
  | zero =>
    rcases Run.exists_begun (options.withLimit none) tape good with ⟨fresh, begun, starts⟩
    refine ⟨fresh, begun, ?_⟩
    rw [Nat.zero_mul, execute, starts]
    rfl
  | succ passes ih =>
    rcases ih fun fewer less => nonzero fewer (Nat.lt_succ_of_lt less) with ⟨before, kept, goes⟩
    rcases exists_passed options passes (passes * (body.length + 1)) kept
      (nonzero passes (Nat.lt_succ_self passes)) with ⟨after, still, passed⟩
    refine ⟨after, still, ?_⟩
    rw [execute] at goes
    rw [Nat.succ_mul, execute, Progress.iterate_add, goes, passed]

/-- The first test that finds zero ends the run. -/
theorem exists_completed_loop (options : Options) (tape : Tape) (good : console.Undisturbed)
    {passes : Nat} (zero : (tape.rounds body passes).current = 0)
    (nonzero : ∀ fewer < passes, (tape.rounds body fewer).current ≠ 0) :
    ∃ final, (ofLoop body).execute (options.withLimit none) tape console
        (passes * (body.length + 1) + 2) = ended .completed final ∧
      final.steps = 1 + passes * (body.length + 1) ∧
      final.machine.tape = tape.rounds body passes := by
  rcases exists_rounds options tape good nonzero with ⟨before, kept, goes⟩
  rcases Machine.exists_tested body tape passes with ⟨test, here, noOutput, noInput, stepped⟩
  simp only [zero, if_true] at stepped
  rcases @Run.exists_advanced ⟨atTest body tape passes, passes * (body.length + 1), before⟩ _ _ _
    kept options here noOutput noInput stepped with ⟨behind, still, leaves⟩
  have past : (ofLoop body)[body.length + 2]? = none := by
    rw [← size_ofLoop]
    exact Array.getElem?_eq_none (Nat.le_refl _)
  rcases @Run.exists_completed ⟨⟨body.length + 2, [], tape.rounds body passes⟩,
    passes * (body.length + 1) + 1, behind⟩ _ still (options.withLimit none) past with
    ⟨last, ends⟩
  have left := (execute_succ_of_running goes).trans leaves
  exact ⟨_, (execute_succ_of_running left).trans ends, Nat.add_comm _ _, rfl⟩

/-- If no test finds zero, a run never ends. -/
theorem exists_running_loop (options : Options) (tape : Tape) (good : console.Undisturbed)
    (nonzero : ∀ passes, (tape.rounds body passes).current ≠ 0) (budget : Nat) :
    ∃ run, (ofLoop body).execute (options.withLimit none) tape console budget = running run := by
  by_contra stopped
  -- A pass takes at least one instruction, so this many passes are enough.
  have enough : budget ≤ budget * (body.length + 1) := Nat.le_mul_of_pos_right _ (Nat.succ_pos _)
  rcases exists_rounds options tape good fun passes (_ : passes < budget) => nonzero passes with
    ⟨after, _, goes⟩
  exact Progress.ne_running_of_le enough (fun run going => stopped ⟨run, going⟩) _ goes

/-- A run that goes on forever without a limit is ended by every limit. -/
theorem exists_limited {program : Program} {options : Options}
    (forever : ∀ budget, ∃ run,
      program.execute (options.withLimit none) tape console budget = running run) (limit : Nat) :
    ∃ final, program.execute (options.withLimit (some limit)) tape console (limit + 1) =
        ended (.failed (.stepLimit limit)) final ∧ final.steps = limit := by
  rcases forever (limit + 1) with ⟨run, goes⟩
  rw [← executeAmid_silent] at goes
  have exceeds : limit < program.attempted (options.withLimit none) tape console .silent
      (limit + 1) := by
    rw [attempted, Progress.attempted_eq_of_running goes]
    exact Nat.lt_succ_self limit
  rcases exists_reached_of_lt exceeds with ⟨reached, steps, _, _, limited⟩
  rw [executeAmid_silent] at limited
  exact ⟨reached, limited, steps⟩

/-- The closed form of a loop around strokes that leave the pointer where it
was.  A run of it completes if and only if some number of passes clears the
cell under the pointer.  With the least such number it carries out the
opening bracket and, for each pass, the body and the closing bracket; every
cell then has gained so many times what one pass adds to it.  If no number
of passes clears the cell, every limit is reached. -/
theorem counting_loop_in_closed_form {tape : Tape} {body : List Stroke}
    (closed : displacement body % tape.length = 0) (options : Options) {console : Console}
    (good : console.Undisturbed) :
    parse (ofLoop body).render = .ok (ofLoop body) ∧
      ((∃ budget final, (ofLoop body).execute (options.withLimit none) tape console budget =
          ended .completed final) ↔
        ∃ passes, tape.ClearedBy body passes) ∧
      (∀ passes, tape.ClearedBy body passes → (∀ fewer < passes, ¬ tape.ClearedBy body fewer) →
        ∃ final, (ofLoop body).execute (options.withLimit none) tape console
            (passes * (body.length + 1) + 2) = ended .completed final ∧
          final.steps = 1 + passes * (body.length + 1) ∧
          final.machine.tape.pointer = tape.pointer ∧
          ∀ index : Nat, final.machine.tape.cells[index]? = tape.cells[index]?.map fun cell =>
            cell + UInt8.ofInt (passes * gain tape.length tape.pointer index body)) ∧
      ((¬ ∃ passes, tape.ClearedBy body passes) →
        ∀ limit, ∃ final, (ofLoop body).execute (options.withLimit (some limit)) tape console
            (limit + 1) = ended (.failed (.stepLimit limit)) final ∧ final.steps = limit) := by
  have tests := fun passes => Tape.current_rounds_eq_zero_iff closed passes
  have completes (passes : Nat) (cleared : tape.ClearedBy body passes)
      (least : ∀ fewer < passes, ¬ tape.ClearedBy body fewer) :=
    exists_completed_loop options tape good ((tests passes).mpr cleared)
      fun fewer less zero => least fewer less ((tests fewer).mp zero)
  have goesOn (never : ¬ ∃ passes, tape.ClearedBy body passes) :=
    exists_running_loop options tape good fun passes zero => never ⟨passes, (tests passes).mp zero⟩
  refine ⟨parse_render_ofLoop body, ⟨?_, ?_⟩, ?_, fun never => exists_limited (goesOn never)⟩
  · rintro ⟨budget, final, ends⟩
    by_contra never
    rcases goesOn never budget with ⟨run, goes⟩
    rw [goes] at ends
    cases ends
  · intro cleared
    rcases completes (Nat.find cleared) (Nat.find_spec cleared)
      (fun _ less => Nat.find_min cleared less) with ⟨final, ends, -, -⟩
    exact ⟨_, final, ends⟩
  · intro passes cleared least
    rcases completes passes cleared least with ⟨final, ends, steps, same⟩
    refine ⟨final, ends, steps, ?_, fun index => ?_⟩
    · rw [same, Tape.pointer_rounds closed]
    · rw [same, Tape.getElem?_rounds closed]

/-- Two cells, and a body that goes around them once and adds two to the
first on its way.  From 250 the first cell comes to zero in three passes,
while the other one counts down; from 251 it never does. -/
theorem counting_loop_around_two_cells :
    (¬ ∃ passes, (⟨#[251, 7], 0, by decide⟩ : Tape).ClearedBy [.up, .right, .down, .right, .up]
      passes) ∧
    ∃ final endless : Run, ({} : Console).Undisturbed ∧
      (ofLoop [.up, .right, .down, .right, .up]).execute (({} : Options).withLimit none)
        ⟨#[250, 7], 0, by decide⟩ {} 20 = ended .completed final ∧
      final.steps = 19 ∧ final.machine.tape.pointer = 0 ∧
      final.machine.tape.cells[1]? = some 4 ∧
      (ofLoop [.up, .right, .down, .right, .up]).execute (({} : Options).withLimit (some 1000))
        ⟨#[251, 7], 0, by decide⟩ {} 1001 = ended (.failed (.stepLimit 1000)) endless := by
  have good : ({} : Console).Undisturbed := ⟨⟨rfl, rfl⟩, ⟨rfl, rfl⟩⟩
  have never : ¬ ∃ passes, (⟨#[251, 7], 0, by decide⟩ : Tape).ClearedBy
      [.up, .right, .down, .right, .up] passes := by
    rintro ⟨passes, cleared⟩
    have gained : gain 2 0 0 [.up, .right, .down, .right, .up] = 2 := by decide
    change 251 + UInt8.ofInt (passes * gain 2 0 0 [.up, .right, .down, .right, .up]) = 0 at cleared
    rw [gained] at cleared
    -- an odd number stays odd in every pass
    have sum := congrArg UInt8.toNat cleared
    have two : (UInt8.ofInt 2).toNat = 2 := rfl
    have start : (251 : UInt8).toNat = 251 := rfl
    have zero : (0 : UInt8).toNat = 0 := rfl
    rw [UInt8.ofInt_mul, UInt8.toNat_add, UInt8.toNat_mul, two, start, zero] at sum
    omega
  rcases (@counting_loop_in_closed_form ⟨#[250, 7], 0, by decide⟩
    [.up, .right, .down, .right, .up] (by decide) {} {} good).2.2.1 3 (by decide) (by decide) with
    ⟨final, ends, steps, pointer, cells⟩
  rcases (@counting_loop_in_closed_form ⟨#[251, 7], 0, by decide⟩
    [.up, .right, .down, .right, .up] (by decide) {} {} good).2.2.2 never 1000 with
    ⟨endless, limited, -⟩
  exact ⟨never, final, endless, good, ends, steps, pointer, (cells 1).trans (by decide), limited⟩

end Program
end RingTape
