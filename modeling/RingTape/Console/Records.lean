import RingTape.Console

namespace RingTape

/-!
# The records of an input script

What each reading is going to get can be told from a script alone.  Without
the borders between its stretches a script is a sequence of bytes and
failures.  Cut behind every line feed and behind every failure, this sequence
falls into records, the last of which may lack its line feed.  A reader that
comes after the last record meets the end of the script, which it takes for a
line without any bytes.

`InputScript.records` makes these cuts in one pass, while
`InputScript.takeRecord` goes through the stretches and takes one record at a
time.  That they agree is proved at the end.
-/

/-- A byte of a script, or a failure between its bytes. -/
inductive InputSymbol where
  | byte (value : UInt8)
  | failure (reason : InputFailure)
  deriving DecidableEq, Repr

/-- What stands in one part of a script. -/
def InputSegment.symbols : InputSegment → List InputSymbol
  | bytes content => content.map .byte
  | failure reason => [.failure reason]

/-- What a record takes out of a script. -/
def InputRecord.symbols : InputRecord → List InputSymbol
  | line content => content.map .byte
  | failed lost reason => lost.map .byte ++ [.failure reason]

namespace InputScript

/-- A script without the borders between its parts. -/
def symbols (script : InputScript) : List InputSymbol :=
  script.flatMap InputSegment.symbols

/-- The records of a sequence of symbols, if `taken` stands in front of it
and holds no line feed. -/
def recordsAfter (taken : List UInt8) : List InputSymbol → List InputRecord
  | [] => if taken = [] then [] else [.line taken]
  | .byte value :: rest =>
    if value = lineFeed then .line (taken ++ [value]) :: recordsAfter [] rest
    else recordsAfter (taken ++ [value]) rest
  | .failure reason :: rest => .failed taken reason :: recordsAfter [] rest

/-- The records of a script, in order. -/
def records (script : InputScript) : List InputRecord :=
  recordsAfter [] script.symbols

/-- What the reading with this index gets, counted from zero. -/
def record (script : InputScript) (index : Nat) : InputRecord :=
  script.records.getD index (.line [])

/-- A script after so many readings. -/
def skip (script : InputScript) : Nat → InputScript
  | 0 => script
  | count + 1 => skip script.takeRecord.2 count

section Cutting

variable {taken stretch : List UInt8} {rest : List InputSymbol}

theorem recordsAfter_append (unended : lineFeed ∉ stretch) :
    recordsAfter taken (stretch.map .byte ++ rest) = recordsAfter (taken ++ stretch) rest := by
  induction stretch generalizing taken with
  | nil => rw [List.map_nil, List.nil_append, List.append_nil]
  | cons value stretch ih =>
    rw [List.mem_cons, not_or] at unended
    rw [List.map_cons, List.cons_append, recordsAfter, if_neg (Ne.symm unended.1), ih unended.2,
      List.append_assoc, List.singleton_append]

theorem recordsAfter_append_lineFeed (unended : lineFeed ∉ stretch) :
    recordsAfter taken (stretch.map .byte ++ .byte lineFeed :: rest) =
      .line (taken ++ stretch ++ [lineFeed]) :: recordsAfter [] rest := by
  rw [recordsAfter_append unended, recordsAfter, if_pos rfl]

/-- Where the search for a line feed stops, one stands. -/
theorem eq_append_of_dropWhile {content remaining : List UInt8} {ending : UInt8}
    (found : content.dropWhile (· != lineFeed) = ending :: remaining) :
    ending = lineFeed ∧
      content = content.takeWhile (· != lineFeed) ++ lineFeed :: remaining := by
  have stops := List.head?_dropWhile_not (· != lineFeed) content
  have whole := List.takeWhile_append_dropWhile (p := (· != lineFeed)) (l := content)
  rw [found] at stops whole
  have same : ending = lineFeed := bne_eq_false_iff_eq.mp stops
  rw [same] at whole
  exact ⟨same, whole.symm⟩

theorem lineFeed_notMem_takeWhile (content : List UInt8) :
    lineFeed ∉ content.takeWhile (· != lineFeed) := by
  intro member
  have inside := List.all_eq_true.mp List.all_takeWhile lineFeed member
  cases inside

theorem lineFeed_notMem_of_dropWhile {content : List UInt8}
    (absent : content.dropWhile (· != lineFeed) = []) : lineFeed ∉ content := by
  have whole := List.takeWhile_append_dropWhile (p := (· != lineFeed)) (l := content)
  rw [absent, List.append_nil] at whole
  rw [← whole]
  exact lineFeed_notMem_takeWhile content

end Cutting

theorem symbols_cons (segment : InputSegment) (script : InputScript) :
    symbols (segment :: script) = segment.symbols ++ symbols script := rfl

/-- Taking a record takes the first one, and leaves the others. -/
theorem recordsAfter_symbols (taken : List UInt8) (script : InputScript) :
    (recordsAfter taken script.symbols).headD (.line []) = (takeRecordAfter taken script).1 ∧
      (recordsAfter taken script.symbols).tail = (takeRecordAfter taken script).2.records := by
  -- A record may go on behind a border, with more bytes taken than before it.
  induction script generalizing taken with
  | nil =>
    by_cases empty : taken = [] <;>
      simp [symbols, recordsAfter, takeRecordAfter, empty, records]
  | cons segment rest ih =>
    cases segment with
    | failure reason => exact ⟨rfl, rfl⟩
    | bytes content =>
      rw [symbols_cons, InputSegment.symbols, takeRecordAfter]
      split
      · next absent =>
        rw [recordsAfter_append (lineFeed_notMem_of_dropWhile absent)]
        exact ih (taken ++ content)
      · next ending remaining found =>
        rcases eq_append_of_dropWhile found with ⟨rfl, whole⟩
        have cut := @recordsAfter_append_lineFeed taken (content.takeWhile (· != lineFeed))
          (remaining.map .byte ++ symbols rest) (lineFeed_notMem_takeWhile content)
        rw [← List.cons_append, ← List.map_cons, ← List.append_assoc, ← List.map_append,
          ← whole] at cut
        rw [cut]
        exact ⟨rfl, rfl⟩

/-- Taking a record takes its symbols from the front and no others. -/
theorem symbols_takeRecordAfter (taken : List UInt8) (script : InputScript) :
    (takeRecordAfter taken script).1.symbols ++ (takeRecordAfter taken script).2.symbols =
      taken.map .byte ++ script.symbols := by
  induction script generalizing taken with
  | nil => rfl
  | cons segment rest ih =>
    cases segment with
    | failure reason =>
      exact List.append_assoc (taken.map .byte) [.failure reason] (symbols rest)
    | bytes content =>
      rw [symbols_cons, InputSegment.symbols, takeRecordAfter]
      split
      · rw [ih, List.map_append, List.append_assoc]
      · next ending remaining found =>
        rcases eq_append_of_dropWhile found with ⟨rfl, whole⟩
        have joined : content.map InputSymbol.byte =
            (content.takeWhile (· != lineFeed)).map .byte ++
              .byte lineFeed :: remaining.map .byte := by
          rw [← List.map_cons, ← List.map_append, ← whole]
        rw [joined, symbols_cons, InputRecord.symbols, InputSegment.symbols]
        simp only [List.map_append, List.map_cons, List.map_nil, List.append_assoc,
          List.cons_append, List.nil_append]

section Readings

variable (script : InputScript)

theorem takeRecord_fst : script.takeRecord.1 = script.record 0 := by
  rw [record, takeRecord, ← (recordsAfter_symbols [] script).1, records, List.headD_eq_head?_getD,
    List.getD_eq_getElem?_getD, List.head?_eq_getElem?]

theorem records_takeRecord : script.takeRecord.2.records = script.records.tail :=
  (recordsAfter_symbols [] script).2.symm

theorem skip_succ (count : Nat) : script.skip (count + 1) = script.takeRecord.2.skip count := rfl

theorem skip_add (first second : Nat) :
    script.skip (first + second) = (script.skip first).skip second := by
  induction first generalizing script with
  | zero => rw [Nat.zero_add]; rfl
  | succ first ih => rw [Nat.succ_add, skip_succ, ih, skip_succ]

theorem records_skip (count : Nat) : (script.skip count).records = script.records.drop count := by
  induction count generalizing script with
  | zero => rfl
  | succ count ih => rw [skip_succ, ih, records_takeRecord, List.drop_tail]

theorem record_skip (count index : Nat) :
    (script.skip count).record index = script.record (count + index) := by
  rw [record, records_skip, record, List.getD_eq_getElem?_getD, List.getD_eq_getElem?_getD,
    List.getElem?_drop]

theorem takeRecord_skip (count : Nat) : (script.skip count).takeRecord.1 = script.record count := by
  rw [takeRecord_fst, record_skip, Nat.add_zero]

/-- What was read and what is left are the whole script. -/
theorem symbols_skip (count : Nat) :
    (script.records.take count).flatMap InputRecord.symbols ++ (script.skip count).symbols =
      script.symbols := by
  induction count generalizing script with
  | zero => rfl
  | succ count ih =>
    have first : script.takeRecord.1.symbols ++ script.takeRecord.2.symbols = script.symbols :=
      symbols_takeRecordAfter [] script
    have later := ih script.takeRecord.2
    rw [records_takeRecord] at later
    rw [skip_succ, ← first, ← later, takeRecord_fst, record]
    cases script.records with
    | nil =>
      rw [List.tail_nil, List.take_nil, List.take_nil]
      rfl
    | cons record others =>
      rw [List.take_succ_cons, List.flatMap_cons, List.append_assoc, List.getD_cons_zero,
        List.tail_cons]

end Readings

/-! The first record can be told from the symbols up to the first line feed. -/

section Lines

variable {script : InputScript} {content : List UInt8}

theorem takeRecord_of_lineFeed (unended : lineFeed ∉ content) {rest : List InputSymbol}
    (holds : script.symbols = content.map .byte ++ .byte lineFeed :: rest) :
    script.takeRecord.1 = .line (content ++ [lineFeed]) ∧ script.takeRecord.2.symbols = rest := by
  have first : script.takeRecord.1 = .line (content ++ [lineFeed]) := by
    rw [takeRecord_fst, record, records, holds, recordsAfter_append_lineFeed unended]
    rfl
  have whole : script.takeRecord.1.symbols ++ script.takeRecord.2.symbols = script.symbols :=
    symbols_takeRecordAfter [] script
  rw [first, holds, InputRecord.symbols, List.map_append, List.append_assoc] at whole
  have behind := List.append_cancel_left whole
  exact ⟨first, (List.cons.inj behind).2⟩

/-- The last line needs no line feed. -/
theorem takeRecord_of_unended (unended : lineFeed ∉ content)
    (holds : script.symbols = content.map .byte) :
    script.takeRecord.1 = .line content ∧ script.takeRecord.2.symbols = [] := by
  have first : script.takeRecord.1 = .line content := by
    rw [takeRecord_fst, record, records, holds, ← List.append_nil (content.map _),
      recordsAfter_append unended, List.nil_append, recordsAfter]
    split
    · next nothing =>
      rw [nothing]
      rfl
    · rfl
  have whole : script.takeRecord.1.symbols ++ script.takeRecord.2.symbols = script.symbols :=
    symbols_takeRecordAfter [] script
  rw [first, holds, InputRecord.symbols] at whole
  exact ⟨first, List.append_right_eq_self.mp whole⟩

end Lines

/-! Where the borders between stretches are does not matter. -/

section Borders

variable {first second : InputScript}

theorem record_of_symbols (same : first.symbols = second.symbols) (index : Nat) :
    first.record index = second.record index := by
  rw [record, record, records, records, same]

theorem symbols_skip_of_symbols (same : first.symbols = second.symbols) (count : Nat) :
    (first.skip count).symbols = (second.skip count).symbols := by
  have alike : first.records = second.records := by rw [records, records, same]
  have whole := first.symbols_skip count
  rw [alike, same] at whole
  exact List.append_cancel_left (whole.trans (second.symbols_skip count).symm)

end Borders
end InputScript

/-- What an input instruction makes of a record. -/
def Mode.answer (mode : Mode) : InputRecord → Except CommandFailure UInt8
  | .failed _ .invalidData => .error .invalidInput
  | .failed _ .other => .error (.device .inputFailed)
  | .line content =>
    match mode.decode? content with
    | some cell => .ok cell
    | none => .error .invalidInput

namespace Console

/-- A cell is read from the next record, and the record is gone whether it
denotes a cell or not. -/
theorem receive_eq (console : Console) (mode : Mode) :
    console.receive mode = (mode.answer console.input.takeRecord.1,
      { console with input := console.input.takeRecord.2 }) := by
  rcases taken : console.input.takeRecord with ⟨content | ⟨lost, reason⟩, rest⟩
  · cases decoded : mode.decode? content <;>
      simp only [receive, taken, Mode.answer, decoded]
  · cases reason <;> simp only [receive, taken, Mode.answer]

end Console
end RingTape
