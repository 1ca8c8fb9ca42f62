import RingTape.Console.InputGrammar
import RingTape.Proofs.Readback
import RingTape.Proofs.Records

namespace RingTape

/-!
# Which input is accepted

Input reads a record in steps: bytes into characters, at most one line feed
off the end, then at most one carriage return, then blanks or a single
character.  The order of these steps matters for a few records only, and the
grammar of `Mode.Accepts` says for all of them what comes out
(`Mode.decode?_eq_some_iff`).  A record holds a line feed at its end and
nowhere else, which is why no record denotes the cell 10 in character mode.

In a run a reading stores exactly the cell that the grammar gives to its
record.  Where it gives none, the run is over and the tape is as it was.
-/

namespace Text

variable {bound value : Nat} {text digits : List Char}

theorem natural?_eq_some_iff :
    natural? digits = some value ↔
      digits ≠ [] ∧ digits.all Char.isDigit = true ∧ Nat.ofDigitChars 10 digits 0 = value := by
  rw [natural?]
  split
  · next given => rw [Option.some.injEq, ← and_assoc, and_iff_right given]
  · next refused =>
    constructor
    · intro impossible
      cases impossible
    · rintro ⟨some, all, -⟩
      exact absurd ⟨some, all⟩ refused

/-- A row of digits does not begin with a sign. -/
theorem withoutPlus_of_isDigit (all : digits.all Char.isDigit = true) :
    withoutPlus digits = digits := by
  unfold withoutPlus
  split
  · next rest =>
    rw [List.all_cons, Bool.and_eq_true] at all
    exact absurd all.1 (by decide)
  · rfl

theorem exists_sign (text : List Char) :
    ∃ sign, (sign = [] ∨ sign = ['+']) ∧ text = sign ++ withoutPlus text := by
  unfold withoutPlus
  split
  · next rest => exact ⟨['+'], .inr rfl, rfl⟩
  · exact ⟨[], .inl rfl, rfl⟩

/-- An unsigned numeral is a row of digits with at most one plus sign. -/
theorem unsigned?_eq_some_iff :
    unsigned? bound text = some value ↔
      ∃ sign digits, text = sign ++ digits ∧ (sign = [] ∨ sign = ['+']) ∧
        natural? digits = some value ∧ value < bound := by
  constructor
  · intro read
    unfold unsigned? at read
    extract_lets digits at read
    split at read
    · next given =>
      cases read
      rcases exists_sign text with ⟨sign, plus, whole⟩
      exact ⟨sign, digits, whole, plus,
        natural?_eq_some_iff.mpr ⟨given.1, given.2.1, rfl⟩, given.2.2⟩
    · cases read
  · rintro ⟨sign, digits, rfl, plus, read, small⟩
    rcases natural?_eq_some_iff.mp read with ⟨some, all, denoted⟩
    have bare : withoutPlus (sign ++ digits) = digits := by
      rcases plus with rfl | rfl
      · exact withoutPlus_of_isDigit all
      · rfl
    simp only [unsigned?, bare, denoted]
    rw [if_pos ⟨some, all, small⟩]

/-- A signed row of digits has no blanks at its ends. -/
theorem trimmed_signed {sign : List Char} (plus : sign = [] ∨ sign = ['+'])
    (all : digits.all Char.isDigit = true) : Trimmed (sign ++ digits) := by
  refine trimmed_of_solid fun character member => ?_
  rcases List.mem_append.mp member with left | right
  · rcases plus with rfl | rfl
    · cases left
    · rw [List.mem_singleton.mp left]
      decide
  · exact isBlank_of_isDigit (List.all_eq_true.mp all character right)

end Text

namespace Mode

variable {final : Char} {text core : List Char} {cell : UInt8} {record : List UInt8}

/-! ## Taking endings off -/

theorem withoutFinal_eq_iff :
    withoutFinal final text = core ↔
      text = core ++ [final] ∨ text = core ∧ core.getLast? ≠ some final := by
  rw [withoutFinal]
  split
  · next ends =>
    rcases List.getLast?_eq_some_iff.mp ends with ⟨front, rfl⟩
    rw [List.dropLast_concat]
    constructor
    · rintro rfl
      exact .inl rfl
    · rintro (same | ⟨rfl, other⟩)
      · exact List.append_cancel_right same
      · exact absurd ends other
  · next other =>
    constructor
    · rintro rfl
      exact .inr ⟨rfl, other⟩
    · rintro (rfl | ⟨same, -⟩)
      · exact absurd List.getLast?_concat other
      · exact same

/-- A blank at the end makes no difference to trimming. -/
theorem trim_withoutFinal (blank : Text.isBlank final = true) (text : List Char) :
    Text.trim (withoutFinal final text) = Text.trim text := by
  rcases withoutFinal_eq_iff.mp (@rfl _ (withoutFinal final text)) with whole | ⟨same, -⟩
  · have single : Text.AllBlank [final] := by
      intro character member
      rw [List.mem_singleton.mp member]
      exact blank
    calc Text.trim (withoutFinal final text)
        = Text.trim (withoutFinal final text ++ [final]) := (Text.trim_append _ single).symm
      _ = Text.trim text := by rw [← whole]
  · rw [← same]

theorem trim_withoutEnding (text : List Char) :
    Text.trim (withoutEnding text) = Text.trim text := by
  rw [withoutEnding, trim_withoutFinal (by decide), trim_withoutFinal (by decide)]

/-- Which texts leave a single character when their ending is taken off. -/
theorem withoutEnding_eq_singleton_iff {single : Char} (feedless : '\n' ∉ text.dropLast) :
    withoutEnding text = [single] ↔
      ∃ ending ∈ endings, text = single :: ending.toList ∧ single ≠ '\n' ∧
        (single = '\r' → '\r' ∈ ending.toList) := by
  have last (other : Char) : [single].getLast? ≠ some other ↔ single ≠ other :=
    not_congr (Option.some.injEq single other).to_iff
  rw [withoutEnding, withoutFinal_eq_iff, withoutFinal_eq_iff, withoutFinal_eq_iff, last, last]
  constructor
  · -- A line feed in front of another character is what `feedless` rules out.
    rintro ((rfl | ⟨rfl, -⟩) | ⟨rfl | ⟨rfl, feed⟩, ret⟩)
    · exact ⟨"\r\n", by decide, rfl, fun feed => feedless (by simp [feed]), fun _ => by decide⟩
    · exact ⟨"\r", by decide, rfl, fun feed => feedless (by simp [feed]), fun _ => by decide⟩
    · exact ⟨"\n", by decide, rfl, fun feed => feedless (by simp [feed]),
        fun same => absurd same ret⟩
    · exact ⟨"", by decide, rfl, feed, fun same => absurd same ret⟩
  · rintro ⟨ending, member, rfl, feed, ret⟩
    simp only [endings, List.mem_cons, List.not_mem_nil, or_false] at member
    rcases member with rfl | rfl | rfl | rfl
    · exact .inr ⟨.inr ⟨rfl, feed⟩, fun same => absurd (ret same) (by decide)⟩
    · refine .inl (.inr ⟨rfl, ?_⟩)
      rw [List.getLast?_concat]
      decide
    · exact .inr ⟨.inl rfl, fun same => absurd (ret same) (by decide)⟩
    · exact .inl (.inl rfl)

/-! ## Both modes -/

theorem readCell?_character_eq_some_iff :
    readCell? character text = some cell ↔ text = [Char.ofNat cell.toNat] := by
  have code := toNat_ofNat cell
  constructor
  · intro read
    unfold readCell? at read
    split at read
    · next single same =>
      split at read
      · next small =>
        have value := congrArg UInt8.toNat (Option.some.inj read)
        rw [UInt8.toNat_ofNat_of_lt' small] at value
        rw [← value, Char.ofNat_toNat]
      · cases read
    · cases read
    · next other => cases other
  · rintro rfl
    have small : cell.toNat < cellBound := cell.toNat_lt
    rw [readCell?, code, if_pos small, UInt8.ofNat_toNat]

theorem readCell?_numeric_eq_some_iff :
    readCell? numeric text = some cell ↔
      ∃ sign digits, Text.Padded (sign ++ digits) text ∧ (sign = [] ∨ sign = ['+']) ∧
        Text.natural? digits = some cell.toNat := by
  have value : readCell? numeric text = some cell ↔
      Text.unsigned? cellBound (Text.trim text) = some cell.toNat := by
    rw [readCell?, Option.map_eq_some_iff]
    constructor
    · rintro ⟨number, read, rfl⟩
      rcases Text.unsigned?_eq_some_iff.mp read with ⟨_, _, _, _, _, small⟩
      rw [UInt8.toNat_ofNat_of_lt' small]
      exact read
    · intro read
      exact ⟨cell.toNat, read, UInt8.ofNat_toNat⟩
  rw [value, Text.unsigned?_eq_some_iff]
  constructor
  · rintro ⟨sign, digits, whole, plus, read, -⟩
    exact ⟨sign, digits, (Text.trim_eq_iff.mp whole).2, plus, read⟩
  · rintro ⟨sign, digits, padded, plus, read⟩
    have trimmed := Text.trimmed_signed plus (Text.natural?_eq_some_iff.mp read).2.1
    exact ⟨sign, digits, Text.trim_eq_iff.mpr ⟨trimmed, padded⟩, plus, read, cell.toNat_lt⟩

theorem ofNat_eq_iff {code : UInt8} :
    Char.ofNat cell.toNat = Char.ofNat code.toNat ↔ cell = code := by
  constructor
  · intro same
    have codes := congrArg Char.toNat same
    rw [toNat_ofNat, toNat_ofNat] at codes
    exact UInt8.toNat_inj.mp codes
  · intro same
    rw [same]

/-- A line feed in front of another character is one in front of another
byte. -/
theorem notMem_dropLast_of_encode {text : String}
    (feedless : InputScript.lineFeed ∉ (Text.encode text).dropLast) :
    '\n' ∉ text.toList.dropLast := by
  intro member
  rcases List.eq_nil_or_concat text.toList with nothing | ⟨front, final, ends⟩
  · rw [nothing] at member
    cases member
  · rw [List.concat_eq_append] at ends
    rw [ends, List.dropLast_concat] at member
    rcases List.append_of_mem member with ⟨before, after, rfl⟩
    have whole : text = String.ofList before ++ ("\n" ++ String.ofList after) ++
        String.singleton final := by
      apply String.toList_inj.mp
      rw [ends]
      simp
    have last : Text.encode (String.singleton final) ≠ [] := by
      intro nothing
      have empty := congrArg String.toList (Text.encode_eq_nil_iff.mp nothing)
      rw [String.toList_singleton] at empty
      cases empty
    have feed : Text.encode "\n" = [InputScript.lineFeed] := rfl
    rw [whole, Text.encode_append, List.dropLast_append_of_ne_nil last, Text.encode_append,
      Text.encode_append, feed] at feedless
    apply feedless
    simp

/-- A record is read as a cell exactly if the grammar says so. -/
theorem decode?_eq_some_iff {mode : Mode} (feedless : InputScript.lineFeed ∉ record.dropLast) :
    mode.decode? record = some cell ↔ mode.Accepts record cell := by
  rw [decode?, Option.bind_eq_some_iff]
  cases mode with
  | numeric =>
    have numbers (text : String) :
        readCell? numeric (withoutEnding text.toList) = some cell ↔
          ∃ sign digits, Text.Padded (sign ++ digits) text.toList ∧
            (sign = [] ∨ sign = ['+']) ∧ Text.natural? digits = some cell.toNat := by
      rw [readCell?, trim_withoutEnding]
      exact readCell?_numeric_eq_some_iff
    constructor
    · rintro ⟨text, read, taken⟩
      rcases (numbers text).mp taken with ⟨sign, digits, shape⟩
      exact ⟨text, sign, digits, read, shape⟩
    · rintro ⟨text, sign, digits, read, shape⟩
      exact ⟨text, read, (numbers text).mpr ⟨sign, digits, shape⟩⟩
  | character =>
    have feed : Char.ofNat cell.toNat ≠ '\n' ↔ cell ≠ 10 := not_congr (@ofNat_eq_iff cell 10)
    have ret : Char.ofNat cell.toNat = '\r' ↔ cell = 13 := @ofNat_eq_iff cell 13
    constructor
    · rintro ⟨text, read, taken⟩
      have written := Text.eq_encode_of_decode? read
      rw [written] at feedless
      rcases (withoutEnding_eq_singleton_iff (notMem_dropLast_of_encode feedless)).mp
        (readCell?_character_eq_some_iff.mp taken) with ⟨ending, member, whole, other, own⟩
      refine ⟨ending, member, ?_, And.intro (feed.mp other) fun same => own (ret.mpr same)⟩
      rw [written]
      congr 1
      apply String.toList_inj.mp
      rw [whole, String.toList_append, String.toList_singleton, List.singleton_append]
    · rintro ⟨ending, member, rfl, other, own⟩
      refine ⟨_, Text.decode?_encode _, readCell?_character_eq_some_iff.mpr ?_⟩
      refine (withoutEnding_eq_singleton_iff (notMem_dropLast_of_encode feedless)).mpr
        ⟨ending, member, ?_, feed.mpr other, fun same => own (ret.mp same)⟩
      rw [String.toList_append, String.toList_singleton, List.singleton_append]

/-- A number may have a sign, any number of zeros and any blanks around it. -/
example : numeric.Accepts (Text.encode " +007\u0085\r\n") 7 :=
  (decode?_eq_some_iff (by decide)).mp rfl

/-- Nothing denotes a line feed in character mode. -/
theorem not_accepts_lineFeed : ¬ character.Accepts record 10 := by
  rintro ⟨ending, _, _, other, _⟩
  exact other rfl

end Mode

namespace InputScript

/-- A line holds a line feed at its end and nowhere else. -/
theorem lineFeed_notMem_of_takeRecordAfter {taken record : List UInt8} {script : InputScript}
    (unended : lineFeed ∉ taken) (next : (takeRecordAfter taken script).1 = .line record) :
    lineFeed ∉ record.dropLast := by
  induction script generalizing taken with
  | nil =>
    cases next
    exact fun member => unended ((List.dropLast_subset _ member))
  | cons segment rest ih =>
    cases segment with
    | failure reason => cases next
    | bytes content =>
      rw [takeRecordAfter] at next
      split at next
      · next absent =>
        refine ih ?_ next
        rw [List.mem_append, not_or]
        exact ⟨unended, lineFeed_notMem_of_dropWhile absent⟩
      · next ending remaining found =>
        cases next
        rw [List.dropLast_concat, List.mem_append, not_or]
        exact ⟨unended, lineFeed_notMem_takeWhile content⟩

theorem lineFeed_notMem_of_takeRecord {record : List UInt8} {script : InputScript}
    (next : script.takeRecord.1 = .line record) : lineFeed ∉ record.dropLast :=
  lineFeed_notMem_of_takeRecordAfter List.not_mem_nil next

end InputScript

namespace Run

variable {run : Run} {options : Options} {program : Program} {record : List UInt8}

/-- A record with a cell is stored. -/
theorem receiving_of_some {cell : UInt8} (rest : InputScript)
    (read : options.mode.decode? record = some cell) :
    run.receiving options (.line record) rest =
      .running ⟨{ run.machine with
        position := run.machine.position + 1
        tape := run.machine.tape.put cell }, run.steps + 1,
        (run.console.flush.2.ask options.prompt).withInput rest⟩ := by
  simp only [receiving, Mode.answer, read]

/-- A record without a cell ends the run. -/
theorem receiving_of_none (rest : InputScript) (refused : options.mode.decode? record = none) :
    run.receiving options (.line record) rest =
      .ended (.failed (.invalidInput run.machine.position options.mode))
        { run with console := (run.console.flush.2.ask options.prompt).withInput rest } := by
  simp only [receiving, Mode.answer, refused, errorAfter]

end Run

namespace Program

open Progress (running ended)

variable {program : Program} {options : Options} {tape : Tape} {console : Console}
  {signals : Signals} {budget : Nat} {run after : Run}

/-- A reading that goes on has taken a line that the grammar accepts. -/
theorem exists_accepts_of_running
    (goes : program.executeAmid options tape console signals budget = running run)
    (takes : (run.signalled signals).takesRecord options program = true)
    (next : program.executeAmid options tape console signals (budget + 1) = running after) :
    ∃ record cell, run.console.input.takeRecord.1 = .line record ∧
      options.mode.Accepts record cell ∧ after.machine.tape = run.machine.tape.put cell := by
  have input : (run.signalled signals).console.input = run.console.input := rfl
  rw [executeAmid_succ_of_running goes, Run.advance_of_takesRecord takes, input] at next
  cases taken : run.console.input.takeRecord.1 with
  | failed lost reason =>
    rw [taken] at next
    cases reason <;> simp only [Run.receiving, Mode.answer, reduceCtorEq] at next
  | line record =>
    rw [taken] at next
    cases read : options.mode.decode? record with
    | none =>
      rw [Run.receiving_of_none _ read] at next
      cases next
    | some cell =>
      rw [Run.receiving_of_some _ read] at next
      cases next
      have feedless := InputScript.lineFeed_notMem_of_takeRecord taken
      exact ⟨record, cell, rfl, (Mode.decode?_eq_some_iff feedless).mp read, rfl⟩

/-- Input accepts exactly its grammar.  A reading in a real run that gets past
its flush stores a cell if and only if the grammar gives this cell to its
line, and if the grammar gives none, the run ends with invalid input and
leaves the machine alone.  In character mode no script at all makes a reading
store a line feed. -/
theorem stores_iff_accepts
    (goes : program.executeAmid options tape console signals budget = running run)
    (takes : (run.signalled signals).takesRecord options program = true) :
    (∀ record, run.console.input.takeRecord.1 = .line record →
      (∀ cell,
        (∃ after, program.executeAmid options tape console signals (budget + 1) = running after ∧
          after.machine = { run.machine with
            position := run.machine.position + 1
            tape := run.machine.tape.put cell }) ↔ options.mode.Accepts record cell) ∧
      ((∀ cell, ¬ options.mode.Accepts record cell) →
        ∃ final, program.executeAmid options tape console signals (budget + 1) =
            ended (.failed (.invalidInput run.machine.position options.mode)) final ∧
          final.machine = run.machine)) ∧
    (options.mode = .character → ∀ after,
      program.executeAmid options tape console signals (budget + 1) = running after →
        after.machine.tape.current ≠ 10) := by
  refine ⟨fun record taken => ?_, fun character after next => ?_⟩
  · have feedless := InputScript.lineFeed_notMem_of_takeRecord taken
    have input : (run.signalled signals).console.input = run.console.input := rfl
    have step := executeAmid_succ_of_running goes
    rw [Run.advance_of_takesRecord takes, input, taken] at step
    refine ⟨fun cell => ⟨?_, fun accepts => ?_⟩, fun refused => ?_⟩
    · rintro ⟨after, next, stored⟩
      rcases exists_accepts_of_running goes takes next with ⟨other, value, same, accepts, put⟩
      cases taken.symm.trans same
      rw [stored] at put
      have values := congrArg Tape.current put
      rw [Tape.current_put, Tape.current_put] at values
      rw [values]
      exact accepts
    · have read := (Mode.decode?_eq_some_iff feedless).mpr accepts
      exact ⟨_, step.trans (Run.receiving_of_some _ read), rfl⟩
    · have none : options.mode.decode? record = none := by
        apply Option.eq_none_iff_forall_ne_some.mpr
        intro cell read
        exact refused cell ((Mode.decode?_eq_some_iff feedless).mp read)
      exact ⟨_, step.trans (Run.receiving_of_none _ none), rfl⟩
  · rcases exists_accepts_of_running goes takes next with ⟨record, cell, -, accepts, put⟩
    rw [put, Tape.current_put]
    rintro rfl
    rw [character] at accepts
    exact Mode.not_accepts_lineFeed accepts

/-- A carriage return that has an ending of its own is stored, wherever the
script is divided.  The one behind it is an ending and nothing else. -/
theorem stores_return_before_ending :
    let console : Console := { input := [.bytes [13], .bytes [13, 10, 13, 10]] }
    ∃ program first second final, parse ",," = .ok program ∧
      (program.executeAmid {} ⟨#[7], 0, by decide⟩ console .silent 0 = running first ∧
        (first.signalled .silent).takesRecord {} program = true ∧
        Mode.character.Accepts [13, 13, 10] 13) ∧
      (program.executeAmid {} ⟨#[7], 0, by decide⟩ console .silent 1 = running second ∧
        second.machine.tape.current = 13 ∧ second.machine.tape.current ≠ 10 ∧
        (second.signalled .silent).takesRecord {} program = true ∧
        ∀ cell, ¬ Mode.character.Accepts [13, 10] cell) ∧
      program.executeAmid {} ⟨#[7], 0, by decide⟩ console .silent 2 =
          ended (.failed (.invalidInput 1 .character)) final ∧
        final.machine.tape.current = 13 := by
  intro console
  have accepted : parse ",," = .ok #[.command .input, .command .input] := rfl
  have first := @stores_iff_accepts #[.command .input, .command .input] {} ⟨#[7], 0, by decide⟩
    console .silent 0 _ rfl rfl
  have accepts : Mode.character.Accepts [13, 13, 10] 13 :=
    ⟨"\r\n", by decide, rfl, And.intro (by decide) fun _ => by decide⟩
  rcases ((first.1 _ rfl).1 13).mpr accepts with ⟨after, next, stored⟩
  have second := @stores_iff_accepts #[.command .input, .command .input] {} ⟨#[7], 0, by decide⟩
    console .silent 1 _ rfl rfl
  have refused (cell : UInt8) : ¬ Mode.character.Accepts [13, 10] cell := by
    rw [← Mode.decode?_eq_some_iff (by decide)]
    intro read
    cases read
  rcases (second.1 _ rfl).2 refused with ⟨final, ends, kept⟩
  have current : after.machine.tape.current = 13 := by
    rw [stored]
    exact Tape.current_put _ 13
  cases next
  refine ⟨_, _, _, final, accepted, ⟨rfl, rfl, accepts⟩,
    ⟨rfl, current, first.2 rfl _ rfl, rfl, refused⟩, ends, ?_⟩
  rw [kept]
  exact current

end Program
end RingTape
