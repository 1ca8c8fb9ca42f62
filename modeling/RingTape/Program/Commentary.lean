import RingTape.Program.Balance

namespace RingTape

/-!
# Instructions among commentary

A source text may hold anything between its instructions.  `Program.bare`
leaves only the characters that instructions are written as, and
`Program.Commented` says the converse of a longer text: that it comes from a
shorter one by putting commentary in, at any place.  Whether brackets match
is said here of characters and by counting, as `Program.Balanced` says it of
instructions.  None of this mentions the reader of programs.
-/

namespace Instruction

/-- The characters that are not commentary. -/
def characters : List Char := ['<', '>', '+', '-', '.', ',', '[', ']']

theorem ofChar?_eq_none_iff {character : Char} :
    ofChar? character = none ↔ character ∉ characters := by
  constructor
  · intro unread member
    simp only [characters, List.mem_cons, List.not_mem_nil, or_false] at member
    rcases member with same | same | same | same | same | same | same | same <;>
      subst same <;> cases unread
  · intro absent
    simp only [characters, List.mem_cons, List.not_mem_nil, or_false, not_or] at absent
    unfold ofChar?
    split <;> simp_all only [not_true_eq_false, and_false, false_and]

theorem toChar_mem_characters (instruction : Instruction) :
    instruction.toChar ∈ characters := by
  rcases instruction with (_ | _ | _ | _ | _ | _) | _ | _ <;> decide

theorem toChar_injective {first second : Instruction} (same : first.toChar = second.toChar) :
    first = second := by
  have read := congrArg ofChar? same
  rw [ofChar?_toChar, ofChar?_toChar] at read
  exact Option.some.inj read

end Instruction

namespace Program

open Instruction (ofChar? toChar)

/-- What remains of a text without its commentary. -/
def bare (text : List Char) : List Char :=
  text.filter fun character => character ∈ Instruction.characters

/-- No beginning closes more brackets than it opens, and the whole text
opens as many as it closes. -/
def BracketsMatch (text : List Char) : Prop :=
  (∀ length, (text.take length).count ']' ≤ (text.take length).count '[') ∧
    text.count '[' = text.count ']'

/-- The second text is the first one with commentary put in. -/
inductive Commented : List Char → List Char → Prop
  | done : Commented [] []
  | keep (character : Char) {text longer : List Char} :
    Commented text longer → Commented (character :: text) (character :: longer)
  | insert (character : Char) {text longer : List Char} :
    character ∉ Instruction.characters → Commented text longer →
      Commented text (character :: longer)

/-- Leaving the commentary out is reading the characters one by one. -/
theorem bare_eq_map (text : List Char) : bare text = (text.filterMap ofChar?).map toChar := by
  induction text with
  | nil => rfl
  | cons character rest ih =>
    rw [bare] at ih ⊢
    cases found : ofChar? character with
    | none =>
      have comment := Instruction.ofChar?_eq_none_iff.mp found
      rw [List.filterMap_cons_none found, List.filter_cons_of_neg (by simpa using comment), ih]
    | some instruction =>
      have same := Instruction.toChar_of_ofChar? found
      have member := instruction.toChar_mem_characters
      rw [same] at member
      rw [List.filterMap_cons_some found, List.filter_cons_of_pos (by simpa using member), ih,
        List.map_cons, same]

/-- Commentary leaves no trace in what is read. -/
theorem filterMap_of_commented {text longer : List Char} (commented : Commented text longer) :
    longer.filterMap ofChar? = text.filterMap ofChar? := by
  induction commented with
  | done => rfl
  | keep character _ ih => rw [List.filterMap_cons, List.filterMap_cons, ih]
  | insert character comment _ ih =>
    rw [List.filterMap_cons_none (Instruction.ofChar?_eq_none_iff.mpr comment), ih]

theorem filterMap_map_toChar (instructions : List Instruction) :
    (instructions.map toChar).filterMap ofChar? = instructions := by
  induction instructions with
  | nil => rfl
  | cons instruction rest ih =>
    rw [List.map_cons, List.filterMap_cons_some (Instruction.ofChar?_toChar instruction), ih]

theorem count_map_toChar (instruction : Instruction) (instructions : List Instruction) :
    (instructions.map toChar).count instruction.toChar = instructions.count instruction := by
  rw [List.count, List.count, List.countP_map]
  refine List.countP_congr fun other _ => ?_
  simp only [Function.comp_apply, beq_iff_eq]
  exact ⟨Instruction.toChar_injective, congrArg toChar⟩

/-- Matching brackets are balanced instructions. -/
theorem bracketsMatch_map_toChar {instructions : List Instruction} :
    BracketsMatch (instructions.map toChar) ↔ Balanced instructions := by
  have starts (list : List Instruction) : (list.map toChar).count '[' = opens list :=
    count_map_toChar .loopStart list
  have ends (list : List Instruction) : (list.map toChar).count ']' = closes list :=
    count_map_toChar .loopEnd list
  simp only [BracketsMatch, Balanced, ← List.map_take, starts, ends]

end Program
end RingTape
