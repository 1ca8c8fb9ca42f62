import RingTape.Program

namespace RingTape

/-!
# The reader between two characters

`Program.readFrom` carries its place, its open brackets and what it has read
through one recursion.  A `Reader` is this state at one moment, and
`Reader.next` is what a single character does to it.  Reading a text is the
same as passing its characters one by one and taking the program out at the
end (`Program.parse_eq_bind_finish`), so what holds of every step holds of
the reader of programs.

The reader pairs brackets by its stack alone: an opening bracket pushes its
place, and a closing one pops the entry on top.  `Reader.Pops` names the two
instructions that such a pair becomes.  It looks at no program and searches
for nothing.
-/

/-- The reader in front of a character. -/
structure Reader where
  here : Position := .start
  /-- The places of the brackets that are open, innermost first. -/
  opened : List Position := []
  read : Program := #[]

namespace Reader

/-- Read one character. -/
def next (reader : Reader) (character : Char) : Except BracketError Reader :=
  match reader with
  | ⟨here, opened, read⟩ =>
    match Instruction.ofChar? character with
    | none => .ok ⟨here.next character, opened, read⟩
    | some .loopStart => .ok ⟨here.next character, here :: opened, read.push .loopStart⟩
    | some .loopEnd =>
      match opened with
      | [] => .error (.unmatchedClose here)
      | _ :: outer => .ok ⟨here.next character, outer, read.push .loopEnd⟩
    | some (.command action) => .ok ⟨here.next character, opened, read.push (.command action)⟩

/-- Read these characters. -/
def pass (reader : Reader) (text : List Char) : Except BracketError Reader :=
  text.foldlM next reader

/-- The program that was read, if no bracket is left open. -/
def finish (reader : Reader) : Except BracketError Program :=
  match reader.opened with
  | [] => .ok reader.read
  | _ :: _ => .error (.unmatchedOpen reader.opened.reverse)

/-- The entry that one bracket of a text pushes is popped by another one.
They are given by the numbers of instructions in front of them. -/
def Pops (text : List Char) (start close : Nat) : Prop :=
  ∃ before inner after, ∃ opening closing : Reader,
    text = before ++ '[' :: (inner ++ ']' :: after) ∧
      (pass {} before = .ok opening ∧ opening.read.size = start) ∧
      (pass {} (before ++ '[' :: inner) = .ok closing ∧ closing.read.size = close) ∧
      closing.opened = opening.here :: opening.opened

variable {reader final : Reader} {first second : List Char}

@[simp]
theorem pass_nil (reader : Reader) : reader.pass [] = .ok reader := rfl

@[simp]
theorem pass_cons (reader : Reader) (character : Char) (text : List Char) :
    reader.pass (character :: text) = (reader.next character).bind (·.pass text) := rfl

theorem pass_append (reader : Reader) (first second : List Char) :
    reader.pass (first ++ second) = (reader.pass first).bind (·.pass second) :=
  List.foldlM_append

/-- A text is read in two parts. -/
theorem pass_append_eq_ok_iff :
    reader.pass (first ++ second) = .ok final ↔
      ∃ between, reader.pass first = .ok between ∧ between.pass second = .ok final := by
  rw [pass_append]
  cases reader.pass first with
  | error error =>
    constructor
    · intro impossible
      cases impossible
    · rintro ⟨_, impossible, _⟩
      cases impossible
  | ok between =>
    constructor
    · intro passed
      exact ⟨between, rfl, passed⟩
    · rintro ⟨_, same, passed⟩
      cases same
      exact passed

/-- What every character preserves, a text preserves. -/
theorem pass_preserves {motive : List Char → Reader → Prop} {before : List Char}
    (step : ∀ text character reader next, motive text reader →
      reader.next character = .ok next → motive (text ++ [character]) next)
    (start : motive before reader) (passed : reader.pass first = .ok final) :
    motive (before ++ first) final := by
  induction first generalizing before reader with
  | nil =>
    cases passed
    rw [List.append_nil]
    exact start
  | cons character rest ih =>
    rw [pass_cons] at passed
    cases stepped : reader.next character with
    | error error =>
      rw [stepped] at passed
      cases passed
    | ok next =>
      rw [stepped] at passed
      have behind := ih (step before character reader next start stepped) passed
      rwa [List.append_assoc, List.singleton_append] at behind

end Reader

namespace Program

/-- The reader of programs goes through its states. -/
theorem readFrom_eq_bind_finish (here : Position) (opened : List Position) (read : Program)
    (text : List Char) :
    readFrom here opened read text = (Reader.pass ⟨here, opened, read⟩ text).bind Reader.finish := by
  induction text generalizing here opened read with
  | nil => cases opened <;> rfl
  | cons character rest ih =>
    rw [Reader.pass_cons]
    cases found : Instruction.ofChar? character with
    | none =>
      simp only [readFrom, Reader.next, found]
      exact ih _ _ _
    | some instruction =>
      cases instruction with
      | command action =>
        simp only [readFrom, Reader.next, found]
        exact ih _ _ _
      | loopStart =>
        simp only [readFrom, Reader.next, found]
        exact ih _ _ _
      | loopEnd =>
        simp only [readFrom, Reader.next, found]
        cases opened with
        | nil => rfl
        | cons place outer => exact ih _ _ _

theorem parse_eq_bind_finish (source : String) :
    parse source = (Reader.pass {} source.toList).bind Reader.finish :=
  readFrom_eq_bind_finish .start [] #[] source.toList

/-- An accepted text is read to its end, whatever part of it is read first. -/
theorem exists_pass_of_parse {source : String} {program : Program}
    (accepted : parse source = .ok program) :
    ∃ final, Reader.pass {} source.toList = .ok final ∧ final.opened = [] ∧
      final.read = program := by
  rw [parse_eq_bind_finish] at accepted
  cases passed : Reader.pass {} source.toList with
  | error error =>
    rw [passed] at accepted
    cases accepted
  | ok final =>
    rw [passed] at accepted
    change final.finish = .ok program at accepted
    refine ⟨final, rfl, ?_⟩
    rw [Reader.finish] at accepted
    cases left : final.opened with
    | nil =>
      rw [left] at accepted
      exact ⟨rfl, Except.ok.inj accepted⟩
    | cons place outer =>
      rw [left] at accepted
      cases accepted

end Program
end RingTape
