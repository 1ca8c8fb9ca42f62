import Mathlib.Data.List.Induction
import RingTape.Proofs.OtherTapes
import RingTape.Proofs.Reading
import RingTape.Proofs.StepLimit
import RingTape.Proofs.Tracing
import RingTape.Stroke

namespace RingTape

/-!
# What a row of strokes comes to

A move wraps around and a change of a cell wraps as well, so a row of strokes
has a closed form: one remainder for the pointer and one sum for each cell
(`Tape.pointer_follow`, `Tape.getElem?_follow`).  Both are inductions from
the last stroke, since what a stroke acts on is told by the strokes before
it.  A single stroke is described once, by `pointer_apply` and
`getElem?_apply`, and no later proof looks at the four commands again.

A run of a row of strokes cannot fail on the way and needs nothing from the
console.  At every moment its tape is the one that the strokes carried out
so far make (`Program.machine_of_strokes`).
-/

namespace Stroke

/-- How far a stroke moves the pointer to the right. -/
def shift : Stroke → Int
  | left => -1
  | right => 1
  | up => 0
  | down => 0

/-- What a stroke adds to the cell on which it acts. -/
def change : Stroke → Int
  | left => 0
  | right => 0
  | up => 1
  | down => -1

@[simp]
theorem shift_opposite (stroke : Stroke) : stroke.opposite.shift = -stroke.shift := by
  cases stroke <;> rfl

@[simp]
theorem change_opposite (stroke : Stroke) : stroke.opposite.change = -stroke.change := by
  cases stroke <;> rfl

/-- A stroke that moves the pointer changes no cell. -/
theorem shift_eq_zero_or_change_eq_zero (stroke : Stroke) :
    stroke.shift = 0 ∨ stroke.change = 0 := by
  cases stroke with
  | left => exact .inr rfl
  | right => exact .inr rfl
  | up => exact .inl rfl
  | down => exact .inl rfl

section Concat

variable (strokes : List Stroke) (stroke : Stroke)

theorem displacement_concat :
    displacement (strokes ++ [stroke]) = displacement strokes + stroke.shift := by
  simp only [displacement, List.count_append]
  cases stroke <;> simp [shift] <;> omega

theorem hits_concat (kind : Stroke) (length start index : Nat) :
    hits kind length start index (strokes ++ [stroke]) =
      hits kind length start index strokes +
        if stroke = kind ∧ (start + displacement strokes) % length = index then 1 else 0 := by
  have before : ∀ count ∈ List.range strokes.length,
      (strokes ++ [stroke])[count]? = strokes[count]? ∧
        (strokes ++ [stroke]).take count = strokes.take count := by
    intro count member
    have inside := List.mem_range.mp member
    exact ⟨List.getElem?_append_left inside, List.take_append_of_le_length (Nat.le_of_lt inside)⟩
  have last : (strokes ++ [stroke])[strokes.length]? = some stroke := List.getElem?_concat_length
  have whole : (strokes ++ [stroke]).take strokes.length = strokes := List.take_left
  rw [hits, hits, List.length_append, List.length_singleton, List.range_succ, List.countP_append,
    List.countP_singleton]
  congr 1
  · refine List.countP_congr fun count member => ?_
    rw [(before count member).1, (before count member).2]
  · rw [last, whole]
    simp only [Option.some.injEq, decide_eq_true_eq]

/-- The last stroke adds its change to the cell to which the strokes before
it have brought the pointer. -/
theorem gain_concat (length start index : Nat) :
    gain length start index (strokes ++ [stroke]) =
      gain length start index strokes +
        if (start + displacement strokes) % length = index then stroke.change else 0 := by
  simp only [gain, hits_concat]
  cases stroke <;> simp [change] <;> split <;> omega

end Concat
end Stroke

namespace Tape

open Stroke (displacement gain undoing)

variable {tape : Tape}

/-! ## One stroke -/

/-- The pointer is its own remainder. -/
theorem pointer_emod (tape : Tape) : (tape.pointer : Int) % tape.length = tape.pointer :=
  Int.emod_eq_of_lt (Int.natCast_nonneg _) (Int.ofNat_lt.mpr tape.inside)

theorem pointer_apply (tape : Tape) (stroke : Stroke) :
    ((tape.apply stroke.command 0).pointer : Int) =
      (tape.pointer + stroke.shift) % tape.length := by
  have positive : 1 ≤ tape.cells.size := Nat.zero_lt_of_lt tape.inside
  have still : (tape.pointer : Int) = (tape.pointer + 0) % tape.cells.size := by
    rw [Int.add_zero]
    exact tape.pointer_emod.symm
  cases stroke with
  | left =>
    change (((tape.pointer + tape.cells.size - 1) % tape.cells.size : Nat) : Int) =
      (tape.pointer + -1) % tape.cells.size
    have parts : ((tape.pointer + tape.cells.size - 1 : Nat) : Int) =
        tape.pointer + -1 + tape.cells.size := by omega
    rw [Int.natCast_emod, parts, Int.add_emod_right]
  | right =>
    change (((tape.pointer + 1) % tape.cells.size : Nat) : Int) =
      (tape.pointer + 1) % tape.cells.size
    rw [Int.natCast_emod, Int.natCast_add]
    rfl
  | up => exact still
  | down => exact still

theorem getElem?_put (tape : Tape) (value : UInt8) (index : Nat) :
    (tape.put value).cells[index]? =
      tape.cells[index]?.map fun cell => if tape.pointer = index then value else cell := by
  have inside := tape.inside
  simp only [put]
  rw [Array.getElem?_set]
  split
  · next here =>
    subst here
    rw [Array.getElem?_eq_getElem inside]
    rfl
  · rw [Option.map_id']

theorem getElem?_apply (tape : Tape) (stroke : Stroke) (index : Nat) :
    (tape.apply stroke.command 0).cells[index]? =
      tape.cells[index]?.map fun cell =>
        cell + UInt8.ofInt (if tape.pointer = index then stroke.change else 0) := by
  have same (cell : UInt8) : cell + UInt8.ofInt (if tape.pointer = index then 0 else 0) = cell := by
    rw [ite_self]
    exact UInt8.add_zero cell
  have stored (amount : Int) :
      (tape.put (tape.current + .ofInt amount)).cells[index]? =
        tape.cells[index]?.map fun cell =>
          cell + UInt8.ofInt (if tape.pointer = index then amount else 0) := by
    rw [getElem?_put]
    refine Option.map_congr fun cell found => ?_
    split
    · next here =>
      rw [← here, ← current_eq] at found
      rw [Option.some.inj found]
    · exact (UInt8.add_zero cell).symm
  cases stroke with
  | left => simp only [Stroke.change, same, Option.map_id']; rfl
  | right => simp only [Stroke.change, same, Option.map_id']; rfl
  | up => exact stored 1
  | down =>
    have minus : tape.current - 1 = tape.current + .ofInt (-1) := by
      rw [UInt8.ofInt_neg, UInt8.sub_eq_add_neg]
      rfl
    change (tape.put (tape.current - 1)).cells[index]? = _
    rw [minus]
    exact stored (-1)

@[simp]
theorem size_apply (tape : Tape) (stroke : Stroke) :
    (tape.apply stroke.command 0).cells.size = tape.cells.size :=
  length_apply tape stroke.command 0

/-- The opposite stroke takes a stroke back. -/
theorem apply_opposite (tape : Tape) (stroke : Stroke) :
    (tape.apply stroke.command 0).apply stroke.opposite.command 0 = tape := by
  have size := size_apply tape stroke
  have sizes := (size_apply (tape.apply stroke.command 0) stroke.opposite).trans size
  refine eq_of_cells ?_ sizes ?_
  · apply Int.ofNat_inj.mp
    rw [pointer_apply, pointer_apply, length_apply, Int.emod_add_emod, Stroke.shift_opposite,
      Int.add_neg_cancel_right, pointer_emod]
  · intro index _
    rw [getElem?_apply, getElem?_apply, Option.map_map]
    refine (Option.map_congr fun cell _ => ?_).trans Option.map_id'
    -- Either the pointer did not move in between, or nothing was changed at all.
    have cancels : (if tape.pointer = index then stroke.change else 0) +
        (if (tape.apply stroke.command 0).pointer = index then stroke.opposite.change else 0) =
          0 := by
      rcases stroke.shift_eq_zero_or_change_eq_zero with still | nothing
      · have stays : (tape.apply stroke.command 0).pointer = tape.pointer := by
          apply Int.ofNat_inj.mp
          rw [pointer_apply, still, Int.add_zero, pointer_emod]
        rw [stays, Stroke.change_opposite]
        split <;> omega
      · rw [Stroke.change_opposite, nothing, Int.neg_zero, ite_self, ite_self]
        rfl
    rw [Function.comp_apply, UInt8.add_assoc, ← UInt8.ofInt_add, cancels]
    exact UInt8.add_zero cell

/-! ## Rows of strokes -/

@[simp]
theorem follow_nil (tape : Tape) : tape.follow [] = tape := rfl

@[simp]
theorem follow_cons (tape : Tape) (stroke : Stroke) (strokes : List Stroke) :
    tape.follow (stroke :: strokes) = (tape.apply stroke.command 0).follow strokes := rfl

theorem follow_append (tape : Tape) (first second : List Stroke) :
    tape.follow (first ++ second) = (tape.follow first).follow second :=
  List.foldl_append

theorem follow_concat (tape : Tape) (strokes : List Stroke) (stroke : Stroke) :
    tape.follow (strokes ++ [stroke]) = (tape.follow strokes).apply stroke.command 0 :=
  follow_append tape strokes [stroke]

@[simp]
theorem length_follow (tape : Tape) (strokes : List Stroke) :
    (tape.follow strokes).length = tape.length := by
  induction strokes using List.reverseRecOn with
  | nil => rfl
  | append_singleton before stroke ih => rw [follow_concat, length_apply, ih]

/-- The pointer goes as far as the moves to the right outnumber those to the
left, around the ring. -/
theorem pointer_follow (tape : Tape) (strokes : List Stroke) :
    ((tape.follow strokes).pointer : Int) =
      (tape.pointer + displacement strokes) % tape.length := by
  induction strokes using List.reverseRecOn with
  | nil =>
    have nowhere : (tape.pointer : Int) + displacement [] = tape.pointer := Int.add_zero _
    rw [follow_nil, nowhere, pointer_emod]
  | append_singleton before stroke ih =>
    rw [follow_concat, pointer_apply, ih, length_follow, Int.emod_add_emod, Int.add_assoc,
      Stroke.displacement_concat]

/-- Every cell gains what the strokes add that act on it. -/
theorem getElem?_follow (tape : Tape) (strokes : List Stroke) (index : Nat) :
    (tape.follow strokes).cells[index]? =
      tape.cells[index]?.map fun cell =>
        cell + UInt8.ofInt (gain tape.length tape.pointer index strokes) := by
  induction strokes using List.reverseRecOn with
  | nil =>
    refine ((Option.map_congr fun cell _ => ?_).trans Option.map_id').symm
    exact UInt8.add_zero cell
  | append_singleton before stroke ih =>
    have here : (tape.follow before).pointer = index ↔
        (tape.pointer + displacement before) % tape.length = index := by
      rw [← pointer_follow, Int.natCast_inj]
    rw [follow_concat, getElem?_apply, ih, Option.map_map]
    refine Option.map_congr fun cell _ => ?_
    rw [Function.comp_apply, UInt8.add_assoc, ← UInt8.ofInt_add, Stroke.gain_concat]
    simp only [here]

/-- Opposite strokes in reversed order restore the tape. -/
theorem follow_undoing (tape : Tape) (strokes : List Stroke) :
    (tape.follow strokes).follow (undoing strokes) = tape := by
  induction strokes generalizing tape with
  | nil => rfl
  | cons stroke rest ih =>
    have parts : undoing (stroke :: rest) = undoing rest ++ [stroke.opposite] := by
      rw [undoing, List.map_cons, List.reverse_cons, undoing]
    rw [parts, follow_cons, follow_concat, ih, apply_opposite]

/-! ## Words -/

/-- A tape that fits into memory is moved on by arithmetic in words. -/
theorem fitsWords_of_length (small : 2 * tape.length < UInt64.size) : tape.FitsWords := by
  have inside : tape.pointer < tape.length := tape.inside
  have word : UInt64.size = 18446744073709551616 := rfl
  have leftSum : tape.pointer + tape.length < UInt64.size := by omega
  have rightSum : tape.pointer + 1 < UInt64.size := by omega
  have pointer : (UInt64.ofNat tape.pointer).toNat = tape.pointer :=
    UInt64.toNat_ofNat_of_lt' (by omega)
  have length : (UInt64.ofNat tape.length).toNat = tape.length :=
    UInt64.toNat_ofNat_of_lt' (by omega)
  have one : (1 : UInt64).toNat = 1 := rfl
  have left : (UInt64.ofNat tape.pointer + UInt64.ofNat tape.length).toNat =
      tape.pointer + tape.length := by
    rw [UInt64.toNat_add, pointer, length]
    exact Nat.mod_eq_of_lt leftSum
  have atLeast : (1 : UInt64) ≤ UInt64.ofNat tape.pointer + UInt64.ofNat tape.length := by
    rw [UInt64.le_iff_toNat_le, left, one]
    omega
  refine ⟨leftSum, rightSum, ?_, ?_⟩
  · rw [wordLeft, UInt64.toNat_mod, UInt64.toNat_sub_of_le _ _ atLeast, left, length, one]
    rfl
  · rw [wordRight, UInt64.toNat_mod, UInt64.toNat_add, pointer, length, one]
    exact congrArg (· % tape.length) (Nat.mod_eq_of_lt rightSum)

end Tape

/-! ## Runs -/

/-- An instruction that neither reads nor writes asks nothing of the
console. -/
theorem Console.supply_of_local {instruction : Instruction}
    (noOutput : instruction ≠ .command .output) (noInput : instruction ≠ .command .input)
    (console : Console) (mode : Mode) (prompt : Option String) (cell : UInt8) :
    console.supply mode prompt instruction cell = (.ok cell, console) := by
  cases instruction with
  | loopStart => rfl
  | loopEnd => rfl
  | command action =>
    cases action with
    | output => exact absurd rfl noOutput
    | input => exact absurd rfl noInput
    | moveLeft => rfl
    | moveRight => rfl
    | increment => rfl
    | decrement => rfl

namespace Run

variable {run : Run} {program : Program} {instruction : Instruction} {machine : Machine}

/-- Where nothing is wrong with the console, such an instruction is carried
out, in a traced run as in a real one. -/
theorem exists_advanced (good : run.console.Undisturbed) (options : Options)
    (here : program[run.machine.position]? = some instruction)
    (noOutput : instruction ≠ .command .output) (noInput : instruction ≠ .command .input)
    (stepped : ∀ supplied, run.machine.step program instruction supplied = .ok machine) :
    ∃ after : Console, after.Undisturbed ∧
      run.advance (options.withLimit none) program = .running ⟨machine, run.steps + 1, after⟩ := by
  have free := good.calm.stopped
  cases traced : (options.withLimit none).traced with
  | true =>
    rw [advance_of_traced here free rfl traced]
    exact trace_of_undisturbed good (stepped 0)
  | false =>
    rw [advance_of_untraced here free rfl traced]
    exact ⟨run.console, good,
      perform_of_ok (Console.supply_of_local noOutput noInput _ _ _ _) (stepped _)⟩

/-- Where nothing is wrong with the console, a run begins. -/
theorem exists_begun (options : Options) (tape : Tape) {console : Console}
    (good : console.Undisturbed) :
    ∃ after : Console, after.Undisturbed ∧
      begin options tape console = .running ⟨.load tape, 0, after⟩ := by
  cases traced : options.traced with
  | true => exact Program.begin_of_undisturbed tape traced good
  | false => exact ⟨_, Console.law_undisturbed.recount console 0 good, begin_of_untraced traced⟩

/-- Where nothing is wrong with the console, a run that has used up its
instructions is completed. -/
theorem exists_completed (good : run.console.Undisturbed) (options : Options)
    (past : program[run.machine.position]? = none) :
    ∃ after : Console,
      run.advance options program = .ended .completed { run with console := after } := by
  rw [advance_of_none past, finish_eq, Console.conclude_fst_of_reliable good.reliable]
  exact ⟨_, rfl⟩

end Run

namespace Progress

/-- Strokes that stand in a program are carried out one after the other. -/
theorem exists_followed {program : Program} {strokes : List Stroke} {position : Nat}
    (placed : ∀ index stroke, strokes[index]? = some stroke →
      program[position + index]? = some (.command stroke.command))
    (options : Options) (openLoops : List Nat) (tape : Tape) (steps : Nat) {console : Console}
    (good : console.Undisturbed) :
    ∃ after : Console, after.Undisturbed ∧
      iterate (options.withLimit none) program strokes.length
          (running ⟨⟨position, openLoops, tape⟩, steps, console⟩) =
        running ⟨⟨position + strokes.length, openLoops, tape.follow strokes⟩,
          steps + strokes.length, after⟩ := by
  induction strokes generalizing position tape steps console with
  | nil => exact ⟨console, good, rfl⟩
  | cons stroke rest ih =>
    have here : program[position]? = some (.command stroke.command) := placed 0 stroke rfl
    have stepped (supplied : UInt8) :
        (⟨position, openLoops, tape⟩ : Machine).step program (.command stroke.command) supplied =
          .ok ⟨position + 1, openLoops, tape.apply stroke.command 0⟩ := by
      cases stroke <;> rfl
    rcases @Run.exists_advanced ⟨⟨position, openLoops, tape⟩, steps, console⟩ program _ _ good
      options here (by cases stroke <;> decide) (by cases stroke <;> decide) stepped with
      ⟨between, kept, goes⟩
    have behind (index : Nat) (other : Stroke) (found : rest[index]? = some other) :
        program[position + 1 + index]? = some (.command other.command) := by
      have place : position + 1 + index = position + (index + 1) := by omega
      rw [place]
      exact placed (index + 1) other found
    rcases ih behind (tape.apply stroke.command 0) (steps + 1) kept with ⟨after, still, follows⟩
    refine ⟨after, still, ?_⟩
    have places : position + (rest.length + 1) = position + 1 + rest.length := by omega
    have count : steps + (rest.length + 1) = steps + 1 + rest.length := by omega
    rw [List.length_cons, iterate, goes, follows, places, count, Tape.follow_cons]

end Progress

namespace Program

open Progress (running ended)

theorem getElem?_ofStrokes (strokes : List Stroke) (index : Nat) :
    (ofStrokes strokes)[index]? =
      strokes[index]?.map fun stroke => .command stroke.command := by
  rw [ofStrokes, List.getElem?_toArray, List.getElem?_map]

theorem balanced_map_command (strokes : List Stroke) :
    Balanced (strokes.map fun stroke => .command stroke.command) := by
  rw [balanced_iff_depthAfter?]
  induction strokes with
  | nil => rfl
  | cons stroke rest ih => exact ih

/-- The characters of a row of strokes are a program. -/
theorem parse_render_ofStrokes (strokes : List Stroke) :
    parse (ofStrokes strokes).render = .ok (ofStrokes strokes) := by
  rw [parse_eq_ok_iff, render, String.toList_ofList, filterMap_map_toChar]
  exact ⟨balanced_map_command strokes, rfl⟩

/-- Whatever goes on around it, a run of a row of strokes has carried out
the first of them and nothing else. -/
theorem machine_of_strokes {strokes : List Stroke} {options : Options} {tape : Tape}
    {console : Console} {signals : Signals} {budget : Nat} {run : Run}
    (goes : (ofStrokes strokes).executeAmid options tape console signals budget =
      running run) :
    run.machine = ⟨budget, [], tape.follow (strokes.take budget)⟩ := by
  induction budget generalizing run with
  | zero =>
    have loaded := Run.machine_begin options tape console
    rw [executeAmid_zero] at goes
    rw [goes] at loaded
    exact loaded
  | succ budget ih =>
    rcases exists_before_of_running goes with ⟨before, reached, step⟩
    rcases Run.advance_eq_running step with ⟨instruction, supplied, here, stepped, -⟩
    rw [Run.machine_signalled, ih reached] at here stepped
    rw [getElem?_ofStrokes, Option.map_eq_some_iff] at here
    rcases here with ⟨stroke, found, rfl⟩
    have same := Except.ok.inj stepped
    rw [← same, List.take_add_one, found]
    change _ = Machine.mk _ _ (tape.follow (strokes.take budget ++ [stroke]))
    rw [Tape.follow_concat]
    cases stroke <;> rfl

/-- If nobody interferes, all of them are carried out. -/
theorem exists_completed_strokes (strokes : List Stroke) (options : Options) (tape : Tape)
    {console : Console} (good : console.Undisturbed) :
    ∃ final, (ofStrokes strokes).execute (options.withLimit none) tape console
        (strokes.length + 1) = ended .completed final ∧
      final.machine.tape = tape.follow strokes ∧ final.steps = strokes.length := by
  rcases Run.exists_begun (options.withLimit none) tape good with ⟨fresh, begun, starts⟩
  have placed (index : Nat) (stroke : Stroke) (found : strokes[index]? = some stroke) :
      (ofStrokes strokes)[0 + index]? = some (.command stroke.command) := by
    rw [Nat.zero_add, getElem?_ofStrokes, found]
    rfl
  rcases Progress.exists_followed placed options [] tape 0 begun with ⟨after, kept, follows⟩
  have past : (ofStrokes strokes)[0 + strokes.length]? = none := by
    rw [Nat.zero_add, getElem?_ofStrokes, List.getElem?_eq_none (Nat.le_refl _)]
    rfl
  have goes : (ofStrokes strokes).execute (options.withLimit none) tape console
      strokes.length = running ⟨⟨0 + strokes.length, [], tape.follow strokes⟩,
        0 + strokes.length, after⟩ := by
    rw [execute, starts]
    exact follows
  rcases @Run.exists_completed ⟨⟨0 + strokes.length, [], tape.follow strokes⟩,
    0 + strokes.length, after⟩ _ kept (options.withLimit none) past with ⟨last, ends⟩
  exact ⟨_, (execute_succ_of_running goes).trans ends, rfl, Nat.zero_add _⟩

open Stroke (displacement gain undoing)

/-- A row of strokes in closed form.  The pointer ends as many cells further
to the right as the moves to the right outnumber those to the left, around
the ring; every cell gains what the strokes add that act while the pointer
is there, modulo 256.  On the way the pointer stays on the ring, and on a
tape that fits into memory words are large enough for it.  The opposite
strokes in reversed order restore the tape.  All this is so for the program
of these strokes as well: whatever happens around a run of it, the run has
carried out the first of them, and all of them if nothing happens. -/
theorem strokes_in_closed_form (tape : Tape) (strokes : List Stroke) :
    ((tape.follow strokes).pointer : Int) =
        (tape.pointer + displacement strokes) % tape.length ∧
      (∀ index : Nat, (tape.follow strokes).cells[index]? =
        tape.cells[index]?.map fun cell =>
          cell + UInt8.ofInt (gain tape.length tape.pointer index strokes)) ∧
      (∀ count, (tape.follow (strokes.take count)).pointer < tape.length ∧
        (2 * tape.length < UInt64.size → (tape.follow (strokes.take count)).FitsWords)) ∧
      (tape.follow strokes).follow (undoing strokes) = tape ∧
      parse (ofStrokes strokes).render = .ok (ofStrokes strokes) ∧
      (∀ options console signals budget run,
        (ofStrokes strokes).executeAmid options tape console signals budget = running run →
          run.machine.tape = tape.follow (strokes.take budget)) ∧
      ∀ (options : Options) (console : Console), console.Undisturbed →
        ∃ final, (ofStrokes strokes).execute (options.withLimit none) tape console
            (strokes.length + 1) = ended .completed final ∧
          final.machine.tape = tape.follow strokes ∧ final.steps = strokes.length := by
  refine ⟨tape.pointer_follow strokes, tape.getElem?_follow strokes, ?_,
    tape.follow_undoing strokes, parse_render_ofStrokes strokes, ?_,
    fun options _ good => exists_completed_strokes strokes options tape good⟩
  · intro count
    have length := tape.length_follow (strokes.take count)
    constructor
    · rw [← length]
      exact (tape.follow (strokes.take count)).inside
    · intro small
      exact Tape.fitsWords_of_length (length.symm ▸ small)
  · intro options console signals budget run goes
    rw [machine_of_strokes goes]

/-- A ring of two cells, on which three moves to the right lead to the other
cell and both cells wrap. -/
theorem strokes_around_two_cells :
    ∃ run final : Run, ({} : Console).Undisturbed ∧
      (ofStrokes [.right, .right, .right, .down, .left, .up]).executeAmid {}
        ⟨#[0, 255], 1, by decide⟩ {} .silent 4 = running run ∧
      run.machine.tape = ⟨#[255, 255], 0, by decide⟩ ∧ run.machine.tape.FitsWords ∧
      (ofStrokes [.right, .right, .right, .down, .left, .up]).execute
        (({} : Options).withLimit none) ⟨#[0, 255], 1, by decide⟩ {} 7 = ended .completed final ∧
      final.machine.tape = ⟨#[255, 0], 1, by decide⟩ ∧ final.steps = 6 := by
  have good : ({} : Console).Undisturbed := ⟨⟨rfl, rfl⟩, ⟨rfl, rfl⟩⟩
  rcases strokes_in_closed_form ⟨#[0, 255], 1, by decide⟩
    [.right, .right, .right, .down, .left, .up] with ⟨-, -, inside, -, -, moments, whole⟩
  rcases whole {} {} good with ⟨final, ends, tape, steps⟩
  have early := moments {} {} .silent 4 _ rfl
  refine ⟨_, final, good, rfl, early.trans rfl, ?_, ends, tape.trans rfl, steps⟩
  rw [early]
  exact (inside 4).2 (by decide)

end Program
end RingTape
