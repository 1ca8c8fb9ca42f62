import RingTape.Text.Blank

namespace RingTape
namespace Text

/-!
# Blanks at the ends of a text

What trimming does, said without the procedure that does it: the trimmed
text neither begins nor ends with a blank, and the text is the trimmed one
with blanks before and after it (`trim_eq_iff`).  Both ends of the trimmed
text can be found without trimming, as the first and the last character that
is not blank.
-/

/-- Nothing but blanks. -/
def AllBlank (text : List Char) : Prop :=
  ∀ character ∈ text, isBlank character = true

instance (text : List Char) : Decidable (AllBlank text) :=
  List.decidableBAll _ text

/-- A text that neither begins nor ends with a blank. -/
structure Trimmed (text : List Char) : Prop where
  first : ∀ character ∈ text.head?, isBlank character = false
  last : ∀ character ∈ text.getLast?, isBlank character = false

/-- The second text is the first one with blanks before and after it. -/
def Padded (core text : List Char) : Prop :=
  ∃ before after, AllBlank before ∧ AllBlank after ∧ text = before ++ (core ++ after)

variable {text core before after : List Char}

theorem allBlank_nil : AllBlank [] := fun _ absent => nomatch absent

theorem AllBlank.append (first : AllBlank before) (second : AllBlank after) :
    AllBlank (before ++ after) := by
  intro character member
  rcases List.mem_append.mp member with left | right
  · exact first character left
  · exact second character right

theorem AllBlank.reverse (blank : AllBlank text) : AllBlank text.reverse :=
  fun character member => blank character (List.mem_reverse.mp member)

/-- A character that is not blank does not occur among blanks. -/
theorem AllBlank.notMem (blank : AllBlank text) {character : Char}
    (solid : isBlank character = false) : character ∉ text := by
  intro member
  rw [blank character member] at solid
  cases solid

theorem Trimmed.reverse (trimmed : Trimmed text) : Trimmed text.reverse where
  first := by
    rw [List.head?_reverse]
    exact trimmed.last
  last := by
    rw [List.getLast?_reverse]
    exact trimmed.first

/-- A text without blanks is trimmed. -/
theorem trimmed_of_solid (solid : ∀ character ∈ text, isBlank character = false) :
    Trimmed text where
  first character member := solid character (List.mem_of_mem_head? member)
  last character member := solid character (List.mem_of_getLast? (Option.mem_def.mp member))

theorem padded_refl (text : List Char) : Padded text text :=
  ⟨[], [], allBlank_nil, allBlank_nil, (List.append_nil text).symm⟩

theorem Padded.reverse (padded : Padded core text) : Padded core.reverse text.reverse := by
  obtain ⟨before, after, starts, ends, rfl⟩ := padded
  refine ⟨after.reverse, before.reverse, ends.reverse, starts.reverse, ?_⟩
  rw [List.reverse_append, List.reverse_append, List.append_assoc]

theorem Padded.prepend (padded : Padded core text) (blank : AllBlank before) :
    Padded core (before ++ text) := by
  obtain ⟨start, after, starts, ends, rfl⟩ := padded
  exact ⟨before ++ start, after, blank.append starts, ends, (List.append_assoc ..).symm⟩

theorem Padded.append (padded : Padded core text) (blank : AllBlank after) :
    Padded core (text ++ after) := by
  obtain ⟨before, finish, starts, ends, rfl⟩ := padded
  refine ⟨before, finish ++ after, starts, ends.append blank, ?_⟩
  rw [List.append_assoc, List.append_assoc]

/-! ## Trimming -/

theorem isBlank_head?_dropWhile (text : List Char) :
    ∀ character ∈ (text.dropWhile isBlank).head?, isBlank character = false := by
  intro character member
  have stopped := List.head?_dropWhile_not isBlank text
  rwa [Option.mem_def.mp member] at stopped

theorem dropWhile_of_head? (solid : ∀ character ∈ text.head?, isBlank character = false) :
    text.dropWhile isBlank = text := by
  cases text with
  | nil => rfl
  | cons first rest =>
    rw [List.dropWhile_cons_of_neg]
    rw [solid first rfl]
    exact Bool.false_ne_true

theorem trim_of_trimmed (trimmed : Trimmed text) : trim text = text := by
  rw [trim, dropWhile_of_head? trimmed.first, dropWhile_of_head? trimmed.reverse.first,
    List.reverse_reverse]

theorem trim_prepend (blank : AllBlank before) (text : List Char) :
    trim (before ++ text) = trim text := by
  rw [trim, List.dropWhile_append_of_pos blank, trim]

theorem trim_append (text : List Char) (blank : AllBlank after) :
    trim (text ++ after) = trim text := by
  rw [trim, List.dropWhile_append]
  split
  · next nothing =>
    have blanks : after.dropWhile isBlank = [] := by
      have dropped := @List.dropWhile_append_of_pos _ isBlank after [] blank
      rwa [List.append_nil] at dropped
    rw [blanks, trim, List.isEmpty_iff.mp nothing]
  · rw [List.reverse_append, List.dropWhile_append_of_pos blank.reverse, trim]

theorem trim_of_padded (padded : Padded core text) : trim text = trim core := by
  obtain ⟨before, after, starts, ends, rfl⟩ := padded
  rw [trim_prepend starts, trim_append core ends]

/-- Once its beginning is dropped, a text is the trimmed one and the blanks
at its end. -/
theorem dropWhile_eq_trim_append (text : List Char) :
    text.dropWhile isBlank =
      trim text ++ ((text.dropWhile isBlank).reverse.takeWhile isBlank).reverse := by
  rw [trim, ← List.reverse_append, List.takeWhile_append_dropWhile, List.reverse_reverse]

/-- Trimming takes off a beginning of blanks and an end of blanks. -/
theorem padded_trim (text : List Char) : Padded (trim text) text := by
  have taken (part : List Char) : AllBlank (part.takeWhile isBlank) :=
    List.all_eq_true.mp List.all_takeWhile
  refine ⟨_, _, taken text, (taken (text.dropWhile isBlank).reverse).reverse, ?_⟩
  rw [← dropWhile_eq_trim_append, List.takeWhile_append_dropWhile]

theorem trimmed_trim (text : List Char) : Trimmed (trim text) where
  first := by
    intro character member
    obtain ⟨rest, starts⟩ := List.head?_eq_some_iff.mp (Option.mem_def.mp member)
    apply isBlank_head?_dropWhile text
    rw [dropWhile_eq_trim_append, starts]
    rfl
  last := by
    rw [trim, List.getLast?_reverse]
    exact isBlank_head?_dropWhile _

/-- What is left of a text when it is trimmed. -/
theorem trim_eq_iff : trim text = core ↔ Trimmed core ∧ Padded core text := by
  constructor
  · rintro rfl
    exact ⟨trimmed_trim text, padded_trim text⟩
  · rintro ⟨trimmed, padded⟩
    rw [trim_of_padded padded, trim_of_trimmed trimmed]

/-- Trimming takes blanks off and nothing else. -/
theorem mem_trim_iff {character : Char} (solid : isBlank character = false) :
    character ∈ trim text ↔ character ∈ text := by
  obtain ⟨before, after, starts, ends, whole⟩ := padded_trim text
  constructor
  · intro member
    rw [whole]
    exact List.mem_append_right _ (List.mem_append_left _ member)
  · intro member
    rw [whole, List.mem_append, List.mem_append] at member
    rcases member with outer | inner | outer
    · exact absurd outer (starts.notMem solid)
    · exact inner
    · exact absurd outer (ends.notMem solid)

theorem trim_eq_nil_iff : trim text = [] ↔ AllBlank text := by
  constructor
  · intro nothing
    obtain ⟨before, after, starts, ends, whole⟩ := padded_trim text
    rw [nothing] at whole
    rw [whole]
    exact starts.append ends
  · intro blank
    have dropped := trim_append [] blank
    exact dropped

/-! ## The ends of the trimmed text -/

theorem find?_of_allBlank (blank : AllBlank text) :
    (text.find? fun character => !isBlank character) = none := by
  rw [List.find?_eq_none]
  intro character member
  rw [blank character member]
  exact Bool.false_ne_true

/-- The trimmed text begins with the first character that is not blank. -/
theorem find?_of_padded (trimmed : Trimmed core) (padded : Padded core text) :
    (text.find? fun character => !isBlank character) = core.head? := by
  obtain ⟨before, after, starts, ends, rfl⟩ := padded
  rw [List.find?_append, find?_of_allBlank starts, Option.none_or, List.find?_append,
    find?_of_allBlank ends, Option.or_none]
  cases core with
  | nil => rfl
  | cons first rest => rw [List.find?_cons, trimmed.first first rfl]; rfl

theorem head?_trim (text : List Char) :
    (trim text).head? = text.find? fun character => !isBlank character :=
  (find?_of_padded (trimmed_trim text) (padded_trim text)).symm

/-- The trimmed text ends with the last character that is not blank. -/
theorem getLast?_trim (text : List Char) :
    (trim text).getLast? = text.reverse.find? fun character => !isBlank character := by
  rw [find?_of_padded (trimmed_trim text).reverse (padded_trim text).reverse, List.head?_reverse]

end Text
end RingTape
