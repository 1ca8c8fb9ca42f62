namespace RingTape
namespace Text

/-!
# Blank characters

The Unicode property White_Space, and trimming by it at both ends.  The
class is wider than the four blanks of ASCII and narrower than "does not
print": the separators U+001C to U+001F, the zero-width space and the byte
order mark are not blank.
-/

/-- The ranges of White_Space, ends included. -/
def blankRanges : List (Nat × Nat) :=
  [(0x09, 0x0D), (0x20, 0x20), (0x85, 0x85), (0xA0, 0xA0), (0x1680, 0x1680),
   (0x2000, 0x200A), (0x2028, 0x2029), (0x202F, 0x202F), (0x205F, 0x205F), (0x3000, 0x3000)]

/-- Whether a character has the property White_Space. -/
def isBlank (character : Char) : Bool :=
  blankRanges.any fun range => range.1 ≤ character.toNat && character.toNat ≤ range.2

/-- A text without the blanks it begins and ends with. -/
def trim (text : List Char) : List Char :=
  ((text.dropWhile isBlank).reverse.dropWhile isBlank).reverse

/-- Upper-case ASCII letters become lower-case; nothing else changes. -/
def lowerAscii (text : List Char) : List Char :=
  text.map Char.toLower

theorem isBlank_of_isDigit {digit : Char} (decimal : digit.isDigit = true) :
    isBlank digit = false := by
  rw [Char.isDigit, Bool.and_eq_true, decide_eq_true_eq, decide_eq_true_eq] at decimal
  have low : 48 ≤ digit.toNat := decimal.1
  have high : digit.toNat ≤ 57 := decimal.2
  rw [isBlank, List.any_eq_false]
  intro range member
  simp only [blankRanges, List.mem_cons, List.not_mem_nil, or_false] at member
  rcases member with rfl | rfl | rfl | rfl | rfl | rfl | rfl | rfl | rfl | rfl <;> grind

/-- Blanks have no case. -/
theorem toLower_of_isBlank {character : Char} (blank : isBlank character = true) :
    character.toLower = character := by
  rw [isBlank, List.any_eq_true] at blank
  rcases blank with ⟨range, member, within⟩
  simp only [blankRanges, List.mem_cons, List.not_mem_nil, or_false] at member
  have small : ¬ (65 ≤ character.toNat ∧ character.toNat ≤ 90) := by
    rcases member with rfl | rfl | rfl | rfl | rfl | rfl | rfl | rfl | rfl | rfl <;> grind
  exact dif_neg small

theorem dropWhile_spaces (count : Nat) (text : List Char) :
    (List.replicate count ' ' ++ text).dropWhile isBlank = text.dropWhile isBlank := by
  apply List.dropWhile_append_of_pos
  intro character member
  rw [List.eq_of_mem_replicate member]
  decide

theorem dropWhile_solid {core : List Char} (solid : ∀ character ∈ core, isBlank character = false)
    (nonempty : core ≠ []) (rest : List Char) :
    (core ++ rest).dropWhile isBlank = core ++ rest := by
  cases core with
  | nil => exact absurd rfl nonempty
  | cons first others =>
    rw [List.cons_append, List.dropWhile_cons_of_neg]
    rw [solid first List.mem_cons_self]
    exact Bool.false_ne_true

/-- Trimming undoes padding. -/
theorem trim_padded {core : List Char} (solid : ∀ character ∈ core, isBlank character = false)
    (nonempty : core ≠ []) (before after : Nat) :
    trim (List.replicate before ' ' ++ (core ++ List.replicate after ' ')) = core := by
  have reversed : ∀ character ∈ core.reverse, isBlank character = false :=
    fun character member => solid character (List.mem_reverse.mp member)
  have ends := dropWhile_solid reversed (by simpa using nonempty) []
  rw [List.append_nil] at ends
  rw [trim, dropWhile_spaces, dropWhile_solid solid nonempty, List.reverse_append,
    List.reverse_replicate, dropWhile_spaces, ends, List.reverse_reverse]

example :
    (blankRanges.map fun range => range.2 + 1 - range.1).sum = 25 := by
  decide

end Text
end RingTape
