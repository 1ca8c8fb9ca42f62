import Mathlib.Logic.Relation
import RingTape.Settings.File
import RingTape.Text.Trimming

namespace RingTape

/-!
# What stands in a settings file

The lines of a settings file described by what is written on them, and the
file by the places of its lines.  None of this mentions the reader of
settings files.

`Settings.LastValue` tells the value that a file gives a key in the end.
`Settings.Edit` lists the edits that leave all these values alone, for the
keys that settings have; each edit replaces some neighbouring lines, and what
stands before them says whether they are in the section `run`.  Undoing an
edit and making several of them is left to the closure under equivalence.
-/

namespace FileLine

/-- A header: a name in brackets, with blanks around the brackets. -/
def Heads (line name : List Char) : Prop :=
  Text.Padded ('[' :: (name ++ [']'])) line

/-- A header, whatever its name. -/
def IsHeader (line : List Char) : Prop :=
  ∃ name, Heads line name

/-- A comment: nothing but blanks stands before a number sign. -/
def IsComment (line : List Char) : Prop :=
  ∃ before rest, Text.AllBlank before ∧ line = before ++ '#' :: rest

/-- A key, the first equals sign and a text, with blanks around either. -/
structure Writes (line key written : List Char) : Prop where
  keyTrimmed : Text.Trimmed key
  textTrimmed : Text.Trimmed written
  parts : ∃ left right, line = left ++ '=' :: right ∧ '=' ∉ left ∧
    Text.Padded key left ∧ Text.Padded written right

/-- A line that writes a text behind a key and is nothing else. -/
structure IsKeyLine (line key written : List Char) : Prop where
  writes : Writes line key written
  noHeader : ¬ IsHeader line
  noComment : ¬ IsComment line

/-- A value in double quotes. -/
def quote (value : List Char) : List Char :=
  '"' :: (value ++ ['"'])

/-- The text is a value in double quotes. -/
def IsQuoted (written : List Char) : Prop :=
  ∃ value, written = quote value

/-- The value that a text stands for: one pair of quotes does not count. -/
def Denotes (written value : List Char) : Prop :=
  written = quote value ∨ ¬ IsQuoted written ∧ written = value

/-- A key line that gives the key this value. -/
def Assigns (line key value : List Char) : Prop :=
  ∃ written, IsKeyLine line key written ∧ Denotes written value

end FileLine

namespace Settings

open FileLine (Heads IsHeader IsComment Writes IsKeyLine Assigns)

/-- The lines of a settings file. -/
def fileLines (content : String) : List (List Char) :=
  List.splitOn '\n' content.toList

/-- The section that matters. -/
def runName : List Char := ['r', 'u', 'n']

/-- Behind these lines the section `run` is open: their last header is its
header. -/
def InRun (lines : List (List Char)) : Prop :=
  ∃ before header after, lines = before ++ header :: after ∧ Heads header runName ∧
    ∀ line ∈ after, ¬ IsHeader line

/-- The line at this index is in the section `run` and gives the key this
value. -/
def SetsAt (lines : List (List Char)) (index : Nat) (key value : List Char) : Prop :=
  InRun (lines.take index) ∧ ∃ line, lines[index]? = some line ∧ Assigns line key value

/-- The last line in the section `run` that gives the key a value gives it
this one. -/
def LastValue (lines : List (List Char)) (key value : List Char) : Prop :=
  ∃ index, SetsAt lines index key value ∧
    ∀ later other, index < later → ¬ SetsAt lines later key other

/-- Behind the lines `before`, the old lines and the new ones say the same
about the settings. -/
inductive Edit (before : List (List Char)) : List (List Char) → List (List Char) → Prop
  /-- Add a blank line. -/
  | blank {line : List Char} : Text.AllBlank line → Edit before [] [line]
  /-- Add a comment. -/
  | comment {line : List Char} : IsComment line → Edit before [] [line]
  /-- Add a line without an equals sign. -/
  | unassigned {line : List Char} : ¬ IsHeader line → '=' ∉ line → Edit before [] [line]
  /-- Add a line for a key that no setting has. -/
  | otherKey {line key written : List Char} : IsKeyLine line key written →
      (∀ setting : Setting, key ≠ (setting.key .file).toList) → Edit before [] [line]
  /-- Add a line outside the section `run`. -/
  | outside {line : List Char} : ¬ InRun before → ¬ IsHeader line → Edit before [] [line]
  /-- Add a line for a key that a later line in the section `run` assigns. -/
  | superseded {line later key written final : List Char} {between : List (List Char)} :
      IsKeyLine line key written → IsKeyLine later key final →
      InRun (before ++ line :: between) →
      Edit before (between ++ [later]) (line :: (between ++ [later]))
  /-- Open the section `run` again while it is open. -/
  | reopened {header : List Char} : InRun before → Heads header runName →
      Edit before [] [header]
  /-- Split the section `run` by another section. -/
  | split {header name back : List Char} {inner : List (List Char)} : InRun before →
      Heads header name → name ≠ runName → (∀ line ∈ inner, ¬ IsHeader line) →
      Heads back runName → Edit before [] (header :: (inner ++ [back]))
  /-- Exchange neighbouring lines for different keys. -/
  | swapped {first second key other written text : List Char} : IsKeyLine first key written →
      IsKeyLine second other text → key ≠ other → Edit before [first, second] [second, first]
  /-- Change the blanks around a line. -/
  | padded {core line other : List Char} : Text.Padded core line → Text.Padded core other →
      Edit before [line] [other]
  /-- Change the blanks around a key and around the text written for it. -/
  | respaced {line other key written : List Char} : IsKeyLine line key written →
      Writes other key written → Edit before [line] [other]
  /-- Put the text written for a key in quotes. -/
  | quoted {line other key written : List Char} : IsKeyLine line key written →
      ¬ FileLine.IsQuoted written → Writes other key (FileLine.quote written) →
      Edit before [line] [other]

/-- One edit at some place of a file. -/
inductive Retouched : List (List Char) → List (List Char) → Prop
  | at {before old new : List (List Char)} (after : List (List Char)) :
      Edit before old new → Retouched (before ++ (old ++ after)) (before ++ (new ++ after))

/-- Files that edits and the undoing of edits lead from one to the other. -/
def SameButForEdits (content other : String) : Prop :=
  Relation.EqvGen Retouched (fileLines content) (fileLines other)

end Settings
end RingTape
