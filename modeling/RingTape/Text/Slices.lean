import RingTape.Text.Encoding

namespace RingTape
namespace Text

/-!
# Slices

A text in memory is a sequence of bytes, and a part of it is named by the
offsets of two bytes.  Not every pair of offsets names a part: they have to
be in order, within the text, and between characters.  A slice exists
exactly where the text falls into three parts at these offsets
(`slice?_eq_some_iff`).

A window names a part of a text by the indices of its characters instead,
and exists always.
-/

/-- The number of bytes of a text. -/
def byteLength : List Char → Nat
  | [] => 0
  | character :: rest => character.utf8Size + byteLength rest

/-- Cut a text at a byte offset, if the offset is between two characters or
at an end. -/
def cutAtByte? : Nat → List Char → Option (List Char × List Char)
  | 0, text => some ([], text)
  | _ + 1, [] => none
  | offset + 1, character :: rest =>
    if character.utf8Size ≤ offset + 1 then
      (cutAtByte? (offset + 1 - character.utf8Size) rest).map fun parts =>
        (character :: parts.1, parts.2)
    else
      none

/-- The part of a text between two byte offsets. -/
def slice? (start stop : Nat) (text : List Char) : Option (List Char) := do
  let (front, _) ← cutAtByte? stop text
  let (_, middle) ← cutAtByte? start front
  some middle

/-- The characters of a text with an index from `first` up to `last`, as far
as there are any. -/
def window (first last : Nat) (text : List Char) : List Char :=
  (text.zipIdx.filter fun entry => first ≤ entry.2 ∧ entry.2 ≤ last).map Prod.fst

@[simp]
theorem byteLength_nil : byteLength [] = 0 := rfl

@[simp]
theorem byteLength_cons (character : Char) (text : List Char) :
    byteLength (character :: text) = character.utf8Size + byteLength text := rfl

@[simp]
theorem byteLength_append (first second : List Char) :
    byteLength (first ++ second) = byteLength first + byteLength second := by
  induction first with
  | nil => rw [List.nil_append, byteLength_nil, Nat.zero_add]
  | cons character rest ih => rw [List.cons_append, byteLength_cons, byteLength_cons, ih,
      Nat.add_assoc]

/-- A text has at least as many bytes as characters. -/
theorem length_le_byteLength (text : List Char) : text.length ≤ byteLength text := by
  induction text with
  | nil => exact Nat.le_refl 0
  | cons character rest ih =>
    have size := character.utf8Size_pos
    rw [List.length_cons, byteLength_cons]
    omega

/-- These are the bytes in which a text is written. -/
@[simp]
theorem length_encode (text : String) : (encode text).length = byteLength text.toList := by
  rw [encode_eq_flatMap]
  induction text.toList with
  | nil => rfl
  | cons character rest ih =>
    rw [List.flatMap_cons, List.length_append, String.length_utf8EncodeChar, ih, byteLength_cons]

theorem cutAtByte?_append (front back : List Char) :
    cutAtByte? (byteLength front) (front ++ back) = some (front, back) := by
  induction front with
  | nil => rw [byteLength_nil, List.nil_append, cutAtByte?]
  | cons character rest ih =>
    have size := character.utf8Size_pos
    obtain ⟨before, offset⟩ : ∃ before, byteLength (character :: rest) = before + 1 :=
      ⟨character.utf8Size + byteLength rest - 1, by rw [byteLength_cons]; omega⟩
    have fits : character.utf8Size ≤ before + 1 := by
      rw [← offset, byteLength_cons]
      exact Nat.le_add_right _ _
    have left : before + 1 - character.utf8Size = byteLength rest := by
      rw [← offset, byteLength_cons, Nat.add_sub_cancel_left]
    rw [List.cons_append, offset, cutAtByte?, if_pos fits, left, ih]
    rfl

theorem eq_of_cutAtByte? {offset : Nat} {text front back : List Char}
    (cut : cutAtByte? offset text = some (front, back)) :
    text = front ++ back ∧ byteLength front = offset := by
  fun_induction cutAtByte? offset text generalizing front with
  | case1 text =>
    cases cut
    exact ⟨rfl, rfl⟩
  | case2 => cases cut
  | case3 offset character rest fits ih =>
    rcases Option.map_eq_some_iff.mp cut with ⟨parts, found, same⟩
    cases same
    rcases ih found with ⟨whole, long⟩
    refine ⟨congrArg _ whole, ?_⟩
    rw [byteLength_cons, long]
    omega
  | case4 => cases cut

/-- A text is cut where the bytes of its front end. -/
theorem cutAtByte?_eq_some_iff {offset : Nat} {text front back : List Char} :
    cutAtByte? offset text = some (front, back) ↔
      text = front ++ back ∧ byteLength front = offset := by
  constructor
  · exact eq_of_cutAtByte?
  · rintro ⟨rfl, rfl⟩
    exact cutAtByte?_append front back

/-- A slice is what stands between two parts that have as many bytes as the
offsets say. -/
theorem slice?_eq_some_iff {start stop : Nat} {text middle : List Char} :
    slice? start stop text = some middle ↔
      ∃ front back, text = front ++ middle ++ back ∧ byteLength front = start ∧
        byteLength (front ++ middle) = stop := by
  constructor
  · intro found
    rcases Option.bind_eq_some_iff.mp found with ⟨⟨early, back⟩, cut, rest⟩
    rcases Option.bind_eq_some_iff.mp rest with ⟨⟨front, between⟩, again, same⟩
    cases same
    rcases cutAtByte?_eq_some_iff.mp cut with ⟨rfl, long⟩
    rcases cutAtByte?_eq_some_iff.mp again with ⟨rfl, short⟩
    exact ⟨front, back, rfl, short, long⟩
  · rintro ⟨front, back, rfl, rfl, rfl⟩
    refine Option.bind_eq_some_iff.mpr
      ⟨(front ++ middle, back), cutAtByte?_eq_some_iff.mpr ⟨rfl, rfl⟩, ?_⟩
    exact Option.bind_eq_some_iff.mpr
      ⟨(front, middle), cutAtByte?_eq_some_iff.mpr ⟨rfl, rfl⟩, rfl⟩

/-! ## Windows -/

theorem map_filter_zipIdx (first last start : Nat) (text : List Char) :
    ((text.zipIdx start).filter fun entry => first ≤ entry.2 ∧ entry.2 ≤ last).map Prod.fst =
      (text.take (last + 1 - start)).drop (first - start) := by
  induction text generalizing start with
  | nil => rw [List.zipIdx_nil, List.take_nil, List.drop_nil]; rfl
  | cons character rest ih =>
    rw [List.zipIdx_cons, List.filter_cons]
    by_cases late : last < start
    · have out : ¬ (first ≤ start ∧ start ≤ last) := by omega
      have none : last + 1 - start = 0 ∧ last + 1 - (start + 1) = 0 := by omega
      rw [if_neg (by simpa using out), ih, none.1, none.2, List.take_zero, List.take_zero,
        List.drop_nil, List.drop_nil]
    · have some : last + 1 - start = last + 1 - (start + 1) + 1 := by omega
      rw [some, List.take_succ_cons]
      by_cases early : start < first
      · have out : ¬ (first ≤ start ∧ start ≤ last) := by omega
        have skip : first - start = first - (start + 1) + 1 := by omega
        rw [if_neg (by simpa using out), ih, skip, List.drop_succ_cons]
      · have here : first ≤ start ∧ start ≤ last := by omega
        have all : first - start = 0 ∧ first - (start + 1) = 0 := by omega
        rw [if_pos (by simpa using here), List.map_cons, ih, all.1, all.2]
        rfl

/-- A window is what is left when both ends are cut off. -/
theorem window_eq (first last : Nat) (text : List Char) :
    window first last text = (text.take (last + 1)).drop first :=
  map_filter_zipIdx first last 0 text

end Text
end RingTape
