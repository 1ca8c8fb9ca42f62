namespace RingTape
namespace Text

/-!
# Style sequences in a text

A terminal takes a text as a row of marks: characters that it shows, and
sequences that set the style of what follows.  A sequence is an escape
character, a bracket, parameters made of digits and semicolons, and the
letter `m`.  Whatever does not have this form is taken character by
character.

`marks` cuts a text into its marks, from the left.  What is shown is what
remains without the sequences (`withoutStyles`), and `Closing` says that no
style outlasts the text.
-/

/-- The character that begins a sequence. -/
def escape : Char := '\x1b'

/-- Whether a character can stand among the parameters of a sequence. -/
def isParameter (character : Char) : Bool :=
  character.isDigit || character == ';'

/-- The sequence with these parameters. -/
def styleSequence (parameters : List Char) : List Char :=
  escape :: '[' :: (parameters ++ ['m'])

/-- The parameters of the sequence that switches every style off. -/
def reset : List Char := ['0']

/-- What a terminal takes at a time. -/
inductive Mark where
  | character (shown : Char)
  | style (parameters : List Char)
  deriving DecidableEq, Repr

namespace Mark

/-- How a mark is written. -/
def text : Mark → List Char
  | character shown => [shown]
  | style parameters => styleSequence parameters

/-- What a mark shows. -/
def shown? : Mark → Option Char
  | character shown => some shown
  | style _ => none

end Mark

/-- The parameters of the sequence that a text begins with. -/
def parameters? : List Char → Option (List Char)
  | first :: second :: rest =>
    if first = escape ∧ second = '[' ∧ (rest.dropWhile isParameter).head? = some 'm' then
      some (rest.takeWhile isParameter)
    else
      none
  | _ => none

/-- The marks of a text, once so many of its characters have been taken as
part of a sequence. -/
def marksBehind : Nat → List Char → List Mark
  | _, [] => []
  | taken + 1, _ :: rest => marksBehind taken rest
  | 0, first :: rest =>
    match parameters? (first :: rest) with
    | some parameters => .style parameters :: marksBehind (parameters.length + 2) rest
    | none => .character first :: marksBehind 0 rest

/-- The marks of a text. -/
def marks (text : List Char) : List Mark := marksBehind 0 text

/-- What a text shows. -/
def withoutStyles (text : List Char) : List Char :=
  (marks text).filterMap Mark.shown?

/-- Every style that is switched on is switched off further on. -/
def Closing : List Mark → Prop
  | [] => True
  | .character _ :: rest => Closing rest
  | .style parameters :: rest => (parameters ≠ reset → .style reset ∈ rest) ∧ Closing rest

/-! ## Cutting a text into marks -/

variable {text parameters rest : List Char} {first : Char}

theorem parameters?_eq_some_iff :
    parameters? text = some parameters ↔
      (∀ character ∈ parameters, isParameter character = true) ∧
        ∃ behind, text = styleSequence parameters ++ behind := by
  constructor
  · intro found
    unfold parameters? at found
    split at found
    · next first second rest =>
      split at found
      · next marks =>
        rcases marks with ⟨rfl, rfl, final⟩
        cases found
        rcases List.head?_eq_some_iff.mp final with ⟨behind, ends⟩
        refine ⟨List.all_eq_true.mp List.all_takeWhile, behind, ?_⟩
        rw [styleSequence, List.cons_append, List.cons_append, List.append_assoc,
          List.singleton_append, ← ends, List.takeWhile_append_dropWhile]
      · cases found
    · cases found
  · rintro ⟨all, behind, rfl⟩
    have stops : isParameter 'm' = false := by decide
    have dropped : ((parameters ++ ['m']) ++ behind).dropWhile isParameter = 'm' :: behind := by
      rw [List.append_assoc, List.dropWhile_append_of_pos all, List.singleton_append,
        List.dropWhile_cons_of_neg (by rw [stops]; exact Bool.false_ne_true)]
    have taken : ((parameters ++ ['m']) ++ behind).takeWhile isParameter = parameters := by
      rw [List.append_assoc, List.takeWhile_append_of_pos all, List.singleton_append,
        List.takeWhile_cons_of_neg (by rw [stops]; exact Bool.false_ne_true), List.append_nil]
    rw [styleSequence, List.cons_append, List.cons_append, parameters?, dropped, taken,
      if_pos ⟨rfl, rfl, rfl⟩]

theorem isParameter_of_mem_reset : ∀ character ∈ reset, isParameter character = true :=
  List.all_eq_true.mp (by decide : reset.all isParameter = true)

theorem marksBehind_eq (taken : Nat) (text : List Char) :
    marksBehind taken text = marks (text.drop taken) := by
  induction text generalizing taken with
  | nil => rw [List.drop_nil]; cases taken <;> rfl
  | cons first rest ih =>
    cases taken with
    | zero => rfl
    | succ taken => exact ih taken

/-- A sequence is one mark. -/
theorem marks_styleSequence (all : ∀ character ∈ parameters, isParameter character = true)
    (rest : List Char) :
    marks (styleSequence parameters ++ rest) = .style parameters :: marks rest := by
  have found := parameters?_eq_some_iff.mpr ⟨all, rest, rfl⟩
  rw [styleSequence, List.cons_append] at found ⊢
  have length : ('[' :: (parameters ++ ['m'])).length = parameters.length + 2 := by
    rw [List.length_cons, List.length_append, List.length_singleton]
  rw [marks, marksBehind, found]
  dsimp only
  rw [marksBehind_eq, List.drop_left' length]

/-- Characters that do not begin a sequence are marks of their own. -/
theorem marks_cons (unmarked : parameters? (first :: rest) = none) :
    marks (first :: rest) = .character first :: marks rest := by
  rw [marks, marksBehind, unmarked]
  rfl

theorem marks_append_of_notMem (absent : escape ∉ text) (rest : List Char) :
    marks (text ++ rest) = text.map .character ++ marks rest := by
  induction text with
  | nil => rfl
  | cons first others ih =>
    rw [List.mem_cons, not_or] at absent
    have unmarked : parameters? (first :: (others ++ rest)) = none := by
      rw [Option.eq_none_iff_forall_ne_some]
      intro parameters found
      rcases (parameters?_eq_some_iff.mp found).2 with ⟨behind, same⟩
      exact absent.1 (List.cons.inj same).1.symm
    rw [List.cons_append, marks_cons unmarked, ih absent.2]
    rfl

/-- The marks of a text make up the text. -/
theorem flatMap_marks (text : List Char) : (marks text).flatMap Mark.text = text := by
  generalize length : text.length = count
  induction count using Nat.strongRecOn generalizing text with
  | ind count ih =>
    cases text with
    | nil => rfl
    | cons first rest =>
      cases found : parameters? (first :: rest) with
      | none =>
        rw [marks_cons found, List.flatMap_cons, ih rest.length (by simp [← length]) rest rfl]
        rfl
      | some parameters =>
        rcases parameters?_eq_some_iff.mp found with ⟨all, behind, same⟩
        have shorter : behind.length < count := by
          rw [← length, same]
          simp [styleSequence]
          omega
        rw [same, marks_styleSequence all, List.flatMap_cons, ih behind.length shorter behind rfl]
        rfl

/-! ## Closing styles -/

theorem Closing.append {before after : List Mark} (first : Closing before)
    (second : Closing after) : Closing (before ++ after) := by
  induction before with
  | nil => exact second
  | cons mark rest ih =>
    cases mark with
    | character shown => exact ih first
    | style parameters =>
      exact ⟨fun opens => List.mem_append_left after (first.1 opens), ih first.2⟩

theorem closing_characters (text : List Char) : Closing (text.map .character) := by
  induction text with
  | nil => trivial
  | cons first rest ih => exact ih

/-- A style around characters is closed by the sequence behind them. -/
theorem closing_span (parameters text : List Char) :
    Closing (.style parameters :: (text.map .character ++ [.style reset])) :=
  ⟨fun _ => List.mem_append_right _ List.mem_cons_self,
    (closing_characters text).append ⟨fun opens => absurd rfl opens, trivial⟩⟩

end Text
end RingTape
