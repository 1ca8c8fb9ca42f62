namespace RingTape
namespace Text

/-!
# Quoted characters

A table that shows a cell as a character has to show control characters
too.  A quoted character stands between apostrophes.  Those with a short
escape use it, other characters that do not print are written by their code
in hexadecimal digits, and all else stands for itself.  The rule covers the
256 characters that a cell can be.
-/

/-- The letter after the backslash, for characters with a short escape. -/
def shortEscape? (code : UInt8) : Option Char :=
  if code = 0 then some '0'
  else if code = 9 then some 't'
  else if code = 10 then some 'n'
  else if code = 13 then some 'r'
  else if code = 39 then some '\''
  else if code = 92 then some '\\'
  else none

/-- Whether the character with this code leaves no mark of its own: the
control characters and the soft hyphen, and the no-break space. -/
def isUnprintable (code : UInt8) : Bool :=
  code < 0x20 || (0x7F ≤ code && code ≤ 0xA0) || code == 0xAD

/-- The character with this code, quoted. -/
def quoted (code : UInt8) : String :=
  let shown : List Char :=
    match shortEscape? code with
    | some letter => ['\\', letter]
    | none =>
      if isUnprintable code then
        ['\\', 'u', '\x7b'] ++ Nat.toDigits 16 code.toNat ++ ['\x7d']
      else
        [Char.ofNat code.toNat]
  String.ofList (['\''] ++ shown ++ ['\''])

theorem notMem_quoted_ofNat :
    ∀ code : Fin UInt8.size, '\n' ∉ (quoted (UInt8.ofNat code)).toList := by
  decide +kernel

/-- A quoted character stays on its line. -/
theorem notMem_quoted (code : UInt8) : '\n' ∉ (quoted code).toList := by
  have absent := notMem_quoted_ofNat ⟨code.toNat, code.toNat_lt⟩
  rwa [UInt8.ofNat_toNat] at absent

end Text
end RingTape
