import RingTape.Program.Commentary
import RingTape.Proofs.Parsing

namespace RingTape
namespace Program

/-!
# Which texts are programs

The reader checks brackets with a stack of places.  What it accepts can be
said without one: the texts whose instruction characters, counted from the
beginning, never close more loops than they open and open as many as they
close.  What it returns can be said without it too, since the accepted
program written out is the text without its commentary.  In the other
direction every balanced program is read back from its written form, however
much commentary was put in and wherever it stands.
-/

open Instruction (ofChar? toChar)

/-- Brackets match in a text exactly if its instructions are balanced. -/
theorem bracketsMatch_bare {text : List Char} :
    BracketsMatch (bare text) ↔ Balanced (text.filterMap ofChar?) := by
  rw [bare_eq_map, bracketsMatch_map_toChar]

/-- A text is accepted exactly if its brackets match. -/
theorem exists_parse_iff {source : String} :
    (∃ program, parse source = .ok program) ↔ BracketsMatch (bare source.toList) := by
  rw [bracketsMatch_bare]
  constructor
  · rintro ⟨program, read⟩
    exact (parse_eq_ok_iff.mp read).1
  · intro balanced
    exact ⟨(source.toList.filterMap ofChar?).toArray, parse_eq_ok_iff.mpr ⟨balanced, rfl⟩⟩

/-- An accepted program, written out, is the text without its commentary. -/
theorem map_toChar_of_parse {source : String} {program : Program}
    (read : parse source = .ok program) : program.toList.map toChar = bare source.toList := by
  rw [bare_eq_map, (parse_eq_ok_iff.mp read).2]

/-- A balanced program is read back from any commented form of it. -/
theorem parse_of_commented {instructions : List Instruction} {text : List Char}
    (balanced : Balanced instructions) (commented : Commented (instructions.map toChar) text) :
    parse (String.ofList text) = .ok instructions.toArray := by
  have found : text.filterMap ofChar? = instructions :=
    (filterMap_of_commented commented).trans (filterMap_map_toChar instructions)
  rw [parse_eq_ok_iff, String.toList_ofList, found]
  exact ⟨balanced, rfl⟩

/-- The reader accepts exactly the texts whose brackets match.  An accepted
program consists of the instruction characters of the text, in their order,
and a refused text gives no program.  The other way round, every balanced
sequence of instructions is what is read from its characters, with any
commentary put in anywhere. -/
theorem parse_iff_bracketsMatch :
    (∀ source : String,
      ((∃ program, parse source = .ok program) ↔ BracketsMatch (bare source.toList)) ∧
      (∀ program, parse source = .ok program →
        program.toList.map toChar = bare source.toList) ∧
      ∀ error, parse source = .error error → (parse source).toOption = none) ∧
    ∀ (instructions : List Instruction) (text : List Char),
      Balanced instructions → Commented (instructions.map toChar) text →
        parse (String.ofList text) = .ok instructions.toArray := by
  refine ⟨fun source => ⟨exists_parse_iff, fun _ => map_toChar_of_parse, ?_⟩,
    fun _ _ => parse_of_commented⟩
  intro error refused
  rw [refused]
  rfl

/-- A loop with a line feed inside it and letters around it, and what is left
of the text when the closing bracket is taken away. -/
theorem parse_loop_among_letters :
    Balanced [.command .increment, .loopStart, .command .decrement, .loopEnd] ∧
    Commented ['+', '[', '-', ']'] ['é', '+', '[', '\n', '-', ']', 'λ'] ∧
    parse (String.ofList ['é', '+', '[', '\n', '-', ']', 'λ']) =
      .ok #[.command .increment, .loopStart, .command .decrement, .loopEnd] ∧
    bare ['é', '+', '[', '\n', '-', ']', 'λ'] = ['+', '[', '-', ']'] ∧
    ¬ ∃ program, parse (String.ofList ['é', '+', '[', '\n', '-', 'λ']) = .ok program := by
  have balanced :
      Balanced [.command .increment, .loopStart, .command .decrement, .loopEnd] := by decide
  have commented : Commented ['+', '[', '-', ']'] ['é', '+', '[', '\n', '-', ']', 'λ'] :=
    .insert 'é' (by decide) <| .keep '+' <| .keep '[' <| .insert '\n' (by decide) <|
      .keep '-' <| .keep ']' <| .insert 'λ' (by decide) .done
  have read := parse_iff_bracketsMatch.2 _ _ balanced commented
  have content := (parse_iff_bracketsMatch.1 _).2.1 _ read
  rw [String.toList_ofList] at content
  have unended : ¬ BracketsMatch (bare ['é', '+', '[', '\n', '-', 'λ']) := by
    rintro ⟨_, equal⟩
    exact absurd equal (by decide)
  refine ⟨balanced, commented, read, content.symm, ?_⟩
  rw [(parse_iff_bracketsMatch.1 _).1, String.toList_ofList]
  exact unended

end Program
end RingTape
