namespace RingTape
namespace Text

/-!
# Cutting texts

A text is cut into pieces at a separator, which belongs to no piece; there
is always one piece more than there are separators.  That is `List.splitOn`.
A text can also be cut once, at the first separator.
-/

/-- What stands before and after the first separator, if there is one. -/
def cutOnce? (separator : Char) : List Char → Option (List Char × List Char)
  | [] => none
  | character :: rest =>
    if character = separator then
      some ([], rest)
    else
      (cutOnce? separator rest).map fun parts => (character :: parts.1, parts.2)

/-- What stands between two different marks at the ends of a text. -/
def between? (first last : Char) : List Char → Option (List Char)
  | [] => none
  | opening :: rest =>
    if opening = first ∧ rest.getLast? = some last then some rest.dropLast else none

/-- Lines that end with the separator are the first pieces of a text. -/
theorem splitOn_flatMap {Item : Type} {separator : Char} {line : Item → List Char}
    {items : List Item} (absent : ∀ item ∈ items, separator ∉ line item) (rest : List Char) :
    List.splitOn separator (items.flatMap (fun item => line item ++ [separator]) ++ rest) =
      items.map line ++ List.splitOn separator rest := by
  induction items with
  | nil => rfl
  | cons first others ih =>
    rw [List.flatMap_cons, List.append_assoc, List.append_assoc, List.singleton_append,
      List.splitOn_append_cons_self_of_not_mem (absent first List.mem_cons_self),
      ih fun item member => absent item (List.mem_cons_of_mem _ member), List.map_cons,
      List.cons_append]

@[simp]
theorem length_splitOn (separator : Char) (text : List Char) :
    (List.splitOn separator text).length = text.count separator + 1 := by
  induction text with
  | nil => rfl
  | cons character rest ih =>
    rw [List.splitOn_cons_eq_if_modifyHead, List.count_cons]
    split <;> simp [ih]

/-- With a separator behind each of them, the pieces are the text and a
separator. -/
theorem flatMap_splitOn (separator : Char) (text : List Char) :
    (List.splitOn separator text).flatMap (fun piece => piece ++ [separator]) =
      text ++ [separator] := by
  induction text with
  | nil => rfl
  | cons character rest ih =>
    rcases List.exists_cons_of_ne_nil (List.splitOn_ne_nil separator rest) with
      ⟨first, others, cut⟩
    rw [cut, List.flatMap_cons] at ih
    rw [List.splitOn_cons_eq_if_modifyHead, cut, List.cons_append, ← ih]
    split
    · next same => rw [beq_iff_eq.mp same]; rfl
    · rfl

/-- A cut takes exactly the first separator out. -/
theorem eq_of_cutOnce? {separator : Char} {text before after : List Char}
    (cut : cutOnce? separator text = some (before, after)) :
    text = before ++ separator :: after ∧ separator ∉ before := by
  induction text generalizing before with
  | nil => cases cut
  | cons character rest ih =>
    unfold cutOnce? at cut
    split at cut
    · next same => cases cut; simp [same]
    · next different =>
      obtain ⟨parts, found, same⟩ := Option.map_eq_some_iff.mp cut
      cases same
      obtain ⟨whole, absent⟩ := ih found
      exact ⟨by rw [whole]; rfl, by simpa [Ne.symm different] using absent⟩

theorem cutOnce?_of_notMem {separator : Char} {before : List Char} (absent : separator ∉ before)
    (after : List Char) :
    cutOnce? separator (before ++ separator :: after) = some (before, after) := by
  induction before with
  | nil => rw [List.nil_append, cutOnce?, if_pos rfl]
  | cons first rest ih =>
    rw [List.mem_cons, not_or] at absent
    rw [List.cons_append, cutOnce?, if_neg (Ne.symm absent.1), ih absent.2]
    rfl

/-- A cut is found exactly where the first separator stands. -/
theorem cutOnce?_eq_some_iff {separator : Char} {text before after : List Char} :
    cutOnce? separator text = some (before, after) ↔
      text = before ++ separator :: after ∧ separator ∉ before := by
  constructor
  · exact eq_of_cutOnce?
  · rintro ⟨rfl, absent⟩
    exact cutOnce?_of_notMem absent after

theorem cutOnce?_eq_none_iff {separator : Char} {text : List Char} :
    cutOnce? separator text = none ↔ separator ∉ text := by
  constructor
  · intro uncut member
    obtain ⟨before, after, whole, absent⟩ := List.eq_append_cons_of_mem member
    rw [whole, cutOnce?_of_notMem absent] at uncut
    cases uncut
  · intro absent
    cases cut : cutOnce? separator text with
    | none => rfl
    | some parts =>
      rw [(eq_of_cutOnce? cut).1] at absent
      exact absurd (List.mem_append_right _ List.mem_cons_self) absent

/-! ## Marks at the ends -/

theorem between?_eq_some_iff {first last : Char} {text middle : List Char} :
    between? first last text = some middle ↔ text = first :: (middle ++ [last]) := by
  constructor
  · intro found
    cases text with
    | nil => cases found
    | cons opening rest =>
      rw [between?] at found
      split at found
      · next marks =>
        obtain ⟨front, ends⟩ := List.getLast?_eq_some_iff.mp marks.2
        cases found
        rw [ends, marks.1, List.dropLast_concat]
      · cases found
  · rintro rfl
    rw [between?, if_pos ⟨rfl, List.getLast?_concat⟩, List.dropLast_concat]

/-- Two different marks are found when they are the ends of the text. -/
theorem exists_between_iff {first last : Char} (different : first ≠ last) {text : List Char} :
    (∃ middle, text = first :: (middle ++ [last])) ↔
      text.head? = some first ∧ text.getLast? = some last := by
  constructor
  · rintro ⟨middle, rfl⟩
    rw [← List.cons_append]
    exact ⟨rfl, List.getLast?_concat⟩
  · rintro ⟨starts, ends⟩
    obtain ⟨front, rfl⟩ := List.getLast?_eq_some_iff.mp ends
    cases front with
    | nil => exact absurd (Option.some.inj starts).symm different
    | cons opening middle =>
      cases starts
      exact ⟨middle, rfl⟩

end Text
end RingTape
