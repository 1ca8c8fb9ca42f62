namespace RingTape
namespace Text

/-!
# Unsigned numerals

The numbers of the command line, of the settings and of numeric input share
one grammar: an optional single plus sign and one or more decimal digits,
with a value below a bound that the reader supplies.  Blanks, minus signs
and digit separators are refused.  Leading zeros are allowed, so several
numerals denote one number; `numeral` writes the shortest of them.
-/

/-- The decimal digits of a number, without leading zeros. -/
def numeral (value : Nat) : List Char :=
  Nat.toDigits 10 value

/-- The digits that remain once an optional plus sign is taken off. -/
def withoutPlus : List Char → List Char
  | '+' :: digits => digits
  | digits => digits

/-- The number below `bound` that a numeral denotes. -/
def unsigned? (bound : Nat) (text : List Char) : Option Nat :=
  let digits := withoutPlus text
  if digits ≠ [] ∧ digits.all Char.isDigit ∧ Nat.ofDigitChars 10 digits 0 < bound then
    some (Nat.ofDigitChars 10 digits 0)
  else
    none

/-- The number that a row of decimal digits denotes. -/
def natural? (text : List Char) : Option Nat :=
  if text ≠ [] ∧ text.all Char.isDigit then some (Nat.ofDigitChars 10 text 0) else none

/-- The bound of the lengths, limits and durations: they fill one machine
word of 64 bits. -/
def wordBound : Nat := UInt64.size

theorem isDigit_of_mem_numeral {value : Nat} {digit : Char} (member : digit ∈ numeral value) :
    digit.isDigit = true :=
  Nat.isDigit_of_mem_toDigits (by decide) (by decide) member

theorem notMem_numeral {character : Char} (other : character.isDigit = false) (value : Nat) :
    character ∉ numeral value := by
  intro member
  rw [isDigit_of_mem_numeral member] at other
  cases other

theorem all_isDigit_numeral (value : Nat) : (numeral value).all Char.isDigit = true :=
  List.all_eq_true.mpr fun _ member => isDigit_of_mem_numeral member

theorem numeral_ne_nil (value : Nat) : numeral value ≠ [] := Nat.toDigits_ne_nil

theorem toList_toString (value : Nat) : (toString value).toList = numeral value := by
  rw [Nat.toString_eq_ofList_toDigits, String.toList_ofList, numeral]

theorem natural?_numeral (value : Nat) : natural? (numeral value) = some value := by
  have denoted : Nat.ofDigitChars 10 (numeral value) 0 = value := Nat.ofDigitChars_ten_toDigits
  rw [natural?, if_pos ⟨numeral_ne_nil value, all_isDigit_numeral value⟩, denoted]

/-- Leading zeros make no difference. -/
theorem natural?_replicate_zero (zeros value : Nat) :
    natural? (List.replicate zeros '0' ++ numeral value) = some value := by
  have some : List.replicate zeros '0' ++ numeral value ≠ [] :=
    List.append_ne_nil_of_right_ne_nil _ (numeral_ne_nil value)
  have all : (List.replicate zeros '0' ++ numeral value).all Char.isDigit = true := by
    rw [List.all_eq_true]
    intro digit member
    rcases List.mem_append.mp member with zero | own
    · rw [List.eq_of_mem_replicate zero]
      rfl
    · exact isDigit_of_mem_numeral own
  have denoted : Nat.ofDigitChars 10 (numeral value) 0 = value := Nat.ofDigitChars_ten_toDigits
  rw [natural?, if_pos ⟨some, all⟩, Nat.ofDigitChars_append, Nat.ofDigitChars_replicate_zero,
    Nat.mul_zero, denoted]

theorem withoutPlus_numeral (value : Nat) : withoutPlus (numeral value) = numeral value := by
  cases written : numeral value with
  | nil => rfl
  | cons first rest =>
    have digit : first.isDigit = true := by
      apply @isDigit_of_mem_numeral value
      rw [written]
      exact List.mem_cons_self
    unfold withoutPlus
    split
    · next same =>
      cases same
      exact absurd digit (by decide)
    · rfl

/-- Reading returns every number below the bound that writing produced. -/
theorem unsigned?_numeral {bound value : Nat} (small : value < bound) :
    unsigned? bound (numeral value) = some value := by
  have digits := all_isDigit_numeral value
  have denoted : Nat.ofDigitChars 10 (numeral value) 0 = value := Nat.ofDigitChars_ten_toDigits
  simp only [unsigned?, withoutPlus_numeral, denoted, digits, small]
  simp [numeral_ne_nil]

end Text
end RingTape
