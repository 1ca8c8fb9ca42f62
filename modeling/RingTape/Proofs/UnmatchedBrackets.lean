import Mathlib.Data.List.Induction
import Mathlib.Order.Bounds.Defs
import RingTape.Proofs.Places
import RingTape.Proofs.Reading

namespace RingTape
namespace Program

/-!
# Which brackets are reported

The reader finds unmatched brackets with a stack of places.  Which brackets
these are is said here by counting, with neither a stack nor a search.  A
closing bracket is one too many if the text up to it, the bracket included,
closes more than it opens (`Overclosed`).  An opening bracket is never closed
if no stretch right behind it closes exactly one bracket more than it opens
(`Unclosed`).

What connects the two is the shape of the text in front of the reader
(`Pending`): matching stretches, and between them the brackets that are still
open, whose places are the stack.  Every character keeps that shape, so the
stack that is left at the end holds the brackets that are never closed.
-/

open Instruction (ofChar?)
open Position (following Holds)

/-- A text closes more brackets than it opens. -/
def Overclosed (text : List Char) : Prop :=
  text.count '[' < text.count ']'

instance (text : List Char) : Decidable (Overclosed text) :=
  inferInstanceAs (Decidable (text.count '[' < text.count ']'))

/-- At this place an opening bracket stands that nothing behind it closes. -/
def Unclosed (text : List Char) (place : Position) : Prop :=
  ∃ before after, text = before ++ '[' :: after ∧ place = following before ∧
    ∀ segment, segment <+: after → segment.count ']' ≠ segment.count '[' + 1

/-- A text in which the brackets at these places are open, innermost first,
and all other brackets match. -/
inductive Pending : List Char → List Position → Prop
  | none {text : List Char} : BracketsMatch text → Pending text []
  | one {before inner : List Char} {outer : List Position} : Pending before outer →
      BracketsMatch inner → Pending (before ++ '[' :: inner) (following before :: outer)

variable {text inner before : List Char} {opened outer : List Position} {place : Position}
  {character : Char}

/-! ## Matching texts -/

theorem count_close_cons_open (rest : List Char) : ('[' :: rest).count ']' = rest.count ']' :=
  List.count_cons_of_ne (by decide)

theorem count_open_cons_close (rest : List Char) : (']' :: rest).count '[' = rest.count '[' :=
  List.count_cons_of_ne (by decide)

/-- Matching brackets, said of the beginnings of a text. -/
theorem bracketsMatch_iff :
    BracketsMatch text ↔
      (∀ part, part <+: text → ¬ Overclosed part) ∧ text.count '[' = text.count ']' := by
  refine and_congr_left fun _ => ⟨fun bounded part starts => ?_, fun bounded length => ?_⟩
  · rw [List.prefix_iff_eq_take.mp starts]
    exact Nat.not_lt_of_le (bounded part.length)
  · exact Nat.le_of_not_lt (bounded _ (List.take_prefix length text))

/-- Commentary makes no difference to matching. -/
theorem bracketsMatch_iff_balanced :
    BracketsMatch text ↔ Balanced (text.filterMap ofChar?) := by
  have opening (part : List Char) : (bare part).count '[' = part.count '[' :=
    List.count_filter (by decide)
  have closing (part : List Char) : (bare part).count ']' = part.count ']' :=
    List.count_filter (by decide)
  have excess (part : List Char) : Overclosed (bare part) ↔ Overclosed part := by
    rw [Overclosed, Overclosed, opening, closing]
  rw [← bracketsMatch_bare, bracketsMatch_iff, bracketsMatch_iff, opening, closing]
  refine and_congr_left fun _ => ⟨fun bounded part starts => ?_, fun bounded part starts => ?_⟩
  · rcases List.prefix_filter_iff.mp starts with ⟨whole, begins, rfl⟩
    exact mt (excess whole).mp (bounded whole begins)
  · exact mt (excess part).mpr (bounded _ (starts.filter _))

theorem bracketsMatch_nil : BracketsMatch [] :=
  bracketsMatch_iff_balanced.mpr (by decide)

theorem BracketsMatch.append (first : BracketsMatch before) (second : BracketsMatch inner) :
    BracketsMatch (before ++ inner) := by
  rw [bracketsMatch_iff_balanced] at first second ⊢
  rw [List.filterMap_append]
  exact first.append second

theorem BracketsMatch.enclose (matching : BracketsMatch inner) :
    BracketsMatch ('[' :: (inner ++ [']'])) := by
  rw [bracketsMatch_iff_balanced] at matching ⊢
  have opening : ofChar? '[' = some .loopStart := rfl
  rw [List.filterMap_cons_some opening, List.filterMap_append]
  exact @Balanced.insert [.loopStart] _ [.loopEnd] (by decide) matching

/-! ## The first closing bracket too many -/

/-- Where too much is closed, there is a first bracket that does it. -/
theorem exists_first_excess (excess : ∃ part, part <+: text ∧ Overclosed part) :
    ∃ before after, text = before ++ ']' :: after ∧
      (∀ part, part <+: before → ¬ Overclosed part) ∧ Overclosed (before ++ [']']) := by
  induction text using List.reverseRecOn with
  | nil =>
    rcases excess with ⟨part, starts, excess⟩
    rw [List.prefix_nil.mp starts] at excess
    exact absurd excess (Nat.lt_irrefl 0)
  | append_singleton text last ih =>
    by_cases earlier : ∃ part, part <+: text ∧ Overclosed part
    · rcases ih earlier with ⟨before, after, rfl, sound, excess⟩
      exact ⟨before, after ++ [last], by rw [List.append_assoc, List.cons_append], sound, excess⟩
    · have sound : ∀ part, part <+: text → ¬ Overclosed part :=
        fun part starts excess => earlier ⟨part, starts, excess⟩
      rcases excess with ⟨part, starts, excess⟩
      rcases List.prefix_concat_iff.mp starts with rfl | starts
      · have closing : last = ']' := by
          have bounded := sound text List.prefix_rfl
          rw [Overclosed, List.count_append, List.count_append] at excess
          rw [Overclosed] at bounded
          by_contra other
          have none : [last].count ']' = 0 := List.count_eq_zero.mpr (by simpa using Ne.symm other)
          omega
        exact ⟨text, [], by rw [closing], sound, by rwa [closing] at excess⟩
      · exact absurd excess (sound part starts)

/-- The first bracket too many closes exactly one bracket more than are
opened. -/
theorem count_of_excess (sound : ¬ Overclosed before) (excess : Overclosed (before ++ [']'])) :
    before.count '[' = before.count ']' := by
  simp only [Overclosed, List.count_append, List.count_cons_self, count_open_cons_close,
    List.count_nil] at sound excess
  omega

/-- A text that closes too much has a beginning that closes exactly one
bracket more than it opens. -/
theorem exists_one_more (excess : Overclosed text) :
    ∃ segment, segment <+: text ∧ segment.count ']' = segment.count '[' + 1 := by
  rcases exists_first_excess ⟨text, List.prefix_rfl, excess⟩ with
    ⟨before, after, rfl, sound, excess⟩
  have level := count_of_excess (sound before List.prefix_rfl) excess
  refine ⟨before ++ [']'], ⟨after, by rw [List.append_assoc, List.singleton_append]⟩, ?_⟩
  simp only [List.count_append, List.count_cons_self, count_open_cons_close, List.count_nil]
  omega

/-- A bracket that is never closed: what follows it never closes too much. -/
theorem forall_ne_one_more_iff :
    (∀ segment, segment <+: text → segment.count ']' ≠ segment.count '[' + 1) ↔
      ∀ segment, segment <+: text → ¬ Overclosed segment := by
  constructor
  · intro never segment starts excess
    rcases exists_one_more excess with ⟨part, begins, same⟩
    exact never part (begins.trans starts) same
  · intro sound segment starts same
    exact sound segment starts (Nat.lt_of_lt_of_eq (Nat.lt_succ_self _) same.symm)

/-! ## Brackets that are never closed -/

theorem Unclosed.column_lt (unclosed : Unclosed text place) : place.column < text.length := by
  rcases unclosed with ⟨before, after, rfl, rfl, -⟩
  rw [List.length_append, List.length_cons]
  exact Nat.lt_add_of_pos_right (Nat.succ_pos _)

/-- Where all brackets match, each one is closed. -/
theorem BracketsMatch.not_unclosed (matching : BracketsMatch text) : ¬ Unclosed text place := by
  rintro ⟨before, after, rfl, -, never⟩
  have rest := forall_ne_one_more_iff.mp never after List.prefix_rfl
  have start := (bracketsMatch_iff.mp matching).1 before (List.prefix_append _ _)
  have total := matching.2
  simp only [Overclosed, List.count_append, List.count_cons_self, count_close_cons_open]
    at rest start total
  omega

/-- Behind a matching stretch, the bracket in front of it is the only new one
that is never closed, and it closes none of the earlier ones. -/
theorem unclosed_iff (matching : BracketsMatch inner) :
    Unclosed (before ++ '[' :: inner) place ↔ place = following before ∨ Unclosed before place := by
  constructor
  · rintro ⟨first, after, whole, rfl, never⟩
    rcases List.append_eq_append_iff.mp whole with ⟨between, rfl, rest⟩ | ⟨between, rfl, rest⟩
    · cases between with
      | nil => exact .inl (by rw [List.append_nil])
      | cons mark between =>
        rcases List.cons.inj rest with ⟨-, rfl⟩
        exact absurd ⟨between, after, rfl, rfl, never⟩ (matching.not_unclosed)
    · cases between with
      | nil => exact .inl (by rw [List.append_nil])
      | cons mark between =>
        rcases List.cons.inj rest with ⟨rfl, rfl⟩
        exact .inr ⟨first, between, rfl, rfl, fun segment starts =>
          never segment (starts.trans (List.prefix_append _ _))⟩
  · rintro (rfl | ⟨first, after, rfl, rfl, never⟩)
    · exact ⟨before, inner, rfl, rfl,
        forall_ne_one_more_iff.mpr (bracketsMatch_iff.mp matching).1⟩
    · rw [forall_ne_one_more_iff] at never
      refine ⟨first, after ++ '[' :: inner, by rw [List.append_assoc, List.cons_append], rfl,
        forall_ne_one_more_iff.mpr fun segment starts => ?_⟩
      rcases List.prefix_or_prefix_of_prefix starts (List.prefix_append after _) with
        within | ⟨rest, rfl⟩
      · exact never segment within
      · have whole := never after List.prefix_rfl
        rcases List.prefix_cons_iff.mp ((List.prefix_append_right_inj after).mp starts) with
          rfl | ⟨tail, rfl, begins⟩
        · rwa [List.append_nil]
        · have bounded := (bracketsMatch_iff.mp matching).1 tail begins
          simp only [Overclosed, List.count_append, List.count_cons_self, count_close_cons_open]
            at whole bounded ⊢
          omega

/-! ## The shape of the text in front of the reader -/

namespace Pending

theorem append (pending : Pending text opened) (matching : BracketsMatch inner) :
    Pending (text ++ inner) opened := by
  cases pending with
  | none whole => exact .none (whole.append matching)
  | one outer body =>
    rw [List.append_assoc, List.cons_append]
    exact .one outer (body.append matching)

theorem push (pending : Pending text opened) :
    Pending (text ++ ['[']) (following text :: opened) :=
  .one pending bracketsMatch_nil

theorem pop (pending : Pending text (place :: outer)) : Pending (text ++ [']']) outer := by
  cases pending with
  | one around body =>
    rw [List.append_assoc, List.cons_append]
    exact around.append body.enclose

/-- As many brackets are open as more are opened than closed. -/
theorem count_eq (pending : Pending text opened) :
    text.count '[' = text.count ']' + opened.length := by
  induction pending with
  | none matching => exact matching.2
  | one _ body ih =>
    have level := body.2
    simp only [List.count_append, List.count_cons_self, count_close_cons_open, List.length_cons]
    omega

/-- The open brackets are the ones that are never closed. -/
theorem mem_iff (pending : Pending text opened) : place ∈ opened ↔ Unclosed text place := by
  induction pending with
  | none matching => exact iff_of_false List.not_mem_nil matching.not_unclosed
  | one _ body ih => rw [List.mem_cons, ih, unclosed_iff body]

theorem pairwise (pending : Pending text opened) :
    opened.Pairwise fun first second => second.column < first.column := by
  induction pending with
  | none _ => exact .nil
  | one around _ ih => exact .cons (fun place member => (around.mem_iff.mp member).column_lt) ih

/-- So many closing brackets complete the text. -/
theorem complete (pending : Pending text opened) :
    BracketsMatch (text ++ List.replicate opened.length ']') := by
  induction opened generalizing text with
  | nil =>
    cases pending with
    | none matching => simpa using matching
  | cons place outer ih =>
    rw [List.length_cons, List.replicate_succ, ← List.singleton_append, ← List.append_assoc]
    exact ih pending.pop

end Pending

/-! ## Reading -/

/-- Reading a character that does not close too much keeps the shape. -/
theorem readFrom_character (pending : Pending before opened)
    (sound : ¬ Overclosed (before ++ [character])) (read : Program) :
    ∃ left written, Pending (before ++ [character]) left ∧
      ∀ rest, readFrom (following before) opened read (character :: rest) =
        readFrom (following (before ++ [character])) left written rest := by
  rw [← Position.next_following]
  cases found : ofChar? character with
  | none =>
    have matching : BracketsMatch [character] :=
      bracketsMatch_iff_balanced.mpr (by rw [List.filterMap_cons_none found]; decide)
    exact ⟨opened, read, pending.append matching, fun rest => by simp only [readFrom, found]⟩
  | some instruction =>
    have same := Instruction.toChar_of_ofChar? found
    cases instruction with
    | command action =>
      have matching : BracketsMatch [character] :=
        bracketsMatch_iff_balanced.mpr (by
          rw [List.filterMap_cons_some found]
          cases action <;> decide)
      exact ⟨opened, read.push (.command action), pending.append matching,
        fun rest => by simp only [readFrom, found]⟩
    | loopStart =>
      subst same
      exact ⟨_, read.push .loopStart, pending.push, fun rest => by simp only [readFrom, found]⟩
    | loopEnd =>
      subst same
      cases opened with
      | nil =>
        have level := pending.count_eq
        rw [List.length_nil] at level
        refine absurd ?_ sound
        simp only [Instruction.toChar, Overclosed, List.count_append, List.count_cons_self,
          count_open_cons_close, List.count_nil]
        omega
      | cons place outer =>
        exact ⟨_, read.push .loopEnd, pending.pop, fun rest => by simp only [readFrom, found]⟩

/-- Reading a stretch that nowhere closes too much keeps the shape. -/
theorem readFrom_stretch {stretch : List Char} (pending : Pending before opened)
    (sound : ∀ part, part <+: before ++ stretch → ¬ Overclosed part) (read : Program) :
    ∃ left written, Pending (before ++ stretch) left ∧
      ∀ rest, readFrom (following before) opened read (stretch ++ rest) =
        readFrom (following (before ++ stretch)) left written rest := by
  induction stretch generalizing before opened read with
  | nil =>
    rw [List.append_nil]
    exact ⟨opened, read, pending, fun rest => rfl⟩
  | cons character stretch ih =>
    have joined : before ++ character :: stretch = before ++ [character] ++ stretch := by
      rw [List.append_assoc, List.singleton_append]
    rw [joined] at sound ⊢
    rcases readFrom_character pending (sound _ (List.prefix_append _ _)) read with
      ⟨next, written, shape, step⟩
    rcases ih shape sound written with ⟨left, final, shape, goes⟩
    exact ⟨left, final, shape, fun rest => (step (stretch ++ rest)).trans (goes rest)⟩

/-- A text that nowhere closes too much is read to its end. -/
theorem exists_pending (sound : ∀ part, part <+: text → ¬ Overclosed part) :
    ∃ opened written, Pending text opened ∧
      ∀ rest, readFrom .start [] #[] (text ++ rest) =
        readFrom (following text) opened written rest :=
  readFrom_stretch (.none bracketsMatch_nil) sound #[]

/-- The first closing bracket too many is reported, whatever follows it. -/
theorem parse_of_excess (sound : ∀ part, part <+: before → ¬ Overclosed part)
    (excess : Overclosed (before ++ [']'])) (after : List Char) :
    parse (String.ofList (before ++ ']' :: after)) =
      .error (.unmatchedClose (following before)) := by
  rcases exists_pending sound with ⟨opened, written, pending, goes⟩
  have level := pending.count_eq
  rw [count_of_excess (sound before List.prefix_rfl) excess] at level
  have none : opened = [] := List.eq_nil_of_length_eq_zero (by omega)
  rw [parse, String.toList_ofList, goes, none]
  rfl

/-- A text that is followed by so many closing brackets is read exactly if
they complete it. -/
theorem exists_parse_append_iff {source : String} {count : Nat}
    (pending : Pending source.toList opened) :
    (∃ program, parse (source ++ String.ofList (List.replicate count ']')) = .ok program) ↔
      count = opened.length := by
  rw [exists_parse_iff, bracketsMatch_bare, ← bracketsMatch_iff_balanced, String.toList_append,
    String.toList_ofList]
  constructor
  · intro matching
    have level := matching.2
    have excess := pending.count_eq
    rw [List.count_append, List.count_append, List.count_replicate_self,
      List.count_eq_zero.mpr fun member => absurd (List.eq_of_mem_replicate member) (by decide)]
      at level
    omega
  · rintro rfl
    exact pending.complete

/-- What the report on a refused text says.  If some beginning closes too
much, it names the first closing bracket that does, and no text behind that
bracket changes this.  Otherwise it names the opening brackets that are never
closed, in the order of the text, and just so many closing brackets at the
end would complete the text.  Each place counts the line feeds and the
characters in front of the bracket. -/
theorem unmatched_of_parse {source : String} {error : BracketError}
    (refused : parse source = .error error) :
    ((∃ part, part <+: source.toList ∧ Overclosed part) →
      ∃ before after, source.toList = before ++ ']' :: after ∧
        (∀ part, part <+: before → ¬ Overclosed part) ∧ Overclosed (before ++ [']']) ∧
        error = .unmatchedClose (following before) ∧
        ∀ other, parse (String.ofList (before ++ ']' :: other)) = .error error) ∧
    ((∀ part, part <+: source.toList → ¬ Overclosed part) →
      ∃ places, error = .unmatchedOpen places ∧
        (∀ place, place ∈ places ↔ Unclosed source.toList place) ∧
        (places.Pairwise fun first second => first.column < second.column) ∧
        IsLeast {count | ∃ program,
          parse (source ++ String.ofList (List.replicate count ']')) = .ok program} places.length) ∧
    ∀ place ∈ error.places, Holds source.toList place error.bracket := by
  refine ⟨fun excess => ?_, fun sound => ?_, (holds_of_parse refused).2⟩
  · rcases exists_first_excess excess with ⟨before, after, whole, sound, excess⟩
    have reported := parse_of_excess sound excess
    have same := reported after
    rw [← whole, String.ofList_toList, refused] at same
    cases same
    exact ⟨before, after, whole, sound, excess, rfl, reported⟩
  · rcases exists_pending sound with ⟨opened, written, pending, goes⟩
    have ends := goes []
    rw [List.append_nil] at ends
    rw [parse, ends] at refused
    cases opened with
    | nil => cases refused
    | cons place outer =>
      cases refused
      refine ⟨_, rfl, fun place => List.mem_reverse.trans pending.mem_iff,
        List.pairwise_reverse.mpr pending.pairwise, ?_⟩
      rw [List.length_reverse]
      exact ⟨(exists_parse_append_iff pending).mpr rfl, fun count completed =>
        Nat.le_of_eq ((exists_parse_append_iff pending).mp completed).symm⟩

/-- One text with a bracket too many on its second line, and one in which two
brackets are never closed. -/
theorem unmatched_on_second_line :
    (∃ before after, "[é\n]]+[".toList = before ++ ']' :: after ∧
      BracketError.unmatchedClose ⟨1, 4⟩ = .unmatchedClose (following before) ∧
      ∀ other, parse (String.ofList (before ++ ']' :: other)) =
        .error (.unmatchedClose ⟨1, 4⟩)) ∧
    (∀ place, place ∈ [⟨0, 0⟩, ⟨1, 5⟩] ↔ Unclosed "[é[]\n[".toList place) ∧
    Holds "[é[]\n[".toList ⟨1, 5⟩ '[' ∧
    IsLeast {count | ∃ program,
      parse ("[é[]\n[" ++ String.ofList (List.replicate count ']')) = .ok program} 2 := by
  have closing : parse "[é\n]]+[" = .error (.unmatchedClose ⟨1, 4⟩) := by decide
  have opening : parse "[é[]\n[" = .error (.unmatchedOpen [⟨0, 0⟩, ⟨1, 5⟩]) := by decide
  have excess : ∃ part, part <+: "[é\n]]+[".toList ∧ Overclosed part :=
    ⟨"[é\n]]".toList, by decide, by decide⟩
  have completed : BracketsMatch "[é[]\n[]]".toList :=
    bracketsMatch_iff_balanced.mpr (by decide)
  have sound : ∀ part, part <+: "[é[]\n[".toList → ¬ Overclosed part := fun part starts =>
    (bracketsMatch_iff.mp completed).1 part (starts.trans (by decide))
  rcases (unmatched_of_parse closing).1 excess with ⟨before, after, whole, -, -, named, other⟩
  rcases (unmatched_of_parse opening).2.1 sound with ⟨_, same, unclosed, -, least⟩
  cases same
  exact ⟨⟨before, after, whole, named, other⟩, unclosed,
    (unmatched_of_parse opening).2.2 _ (by decide), least⟩

end Program
end RingTape
