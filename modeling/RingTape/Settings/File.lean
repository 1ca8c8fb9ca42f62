import RingTape.Settings
import RingTape.Text.Pieces

namespace RingTape

/-!
# The settings file

A settings file is read line by line.  A header in brackets opens a section,
and only the lines of the section `run` count.  Such a line assigns the text
after its first equals sign to the name before it; blanks around either are
dropped, and so is one pair of double quotes around the text.  When a name
is assigned several times, the last assignment counts.  All other lines are
skipped without complaint.
-/

/-- What a line of a settings file does. -/
inductive FileLine where
  | header (name : List Char)
  | assignment (key value : List Char)
  | ignored
  deriving DecidableEq, Repr

namespace FileLine

/-- A text without the quotes around it, if it has both. -/
def unquoted (text : List Char) : List Char :=
  (Text.between? '"' '"' text).getD text

/-- What a line does, blanks around it already dropped. -/
def ofTrimmed (line : List Char) : FileLine :=
  match line with
  | [] => ignored
  | '#' :: _ => ignored
  | _ =>
    match Text.between? '[' ']' line with
    | some name => header name
    | none =>
      match Text.cutOnce? '=' line with
      | some (key, value) => assignment (Text.trim key) (unquoted (Text.trim value))
      | none => ignored

/-- What a line does. -/
def ofText (line : List Char) : FileLine :=
  ofTrimmed (Text.trim line)

/-- The assignments in the section `run`, in the order of the file. -/
def assignments (inRun : Bool) : List FileLine → List (String × String)
  | [] => []
  | header name :: rest => assignments (name == "run".toList) rest
  | assignment key value :: rest =>
    if inRun then
      (String.ofList key, String.ofList value) :: assignments inRun rest
    else
      assignments inRun rest
  | ignored :: rest => assignments inRun rest

end FileLine

namespace Settings

/-- The name of the settings file. -/
def fileName : String := "bftape.toml"

/-- The assignments that a settings file makes. -/
def fileAssignments (content : String) : List (String × String) :=
  FileLine.assignments false ((List.splitOn '\n' content.toList).map FileLine.ofText)

/-- The text that was last assigned to a name. -/
def lastAssigned? (assignments : List (String × String)) (key : String) : Option String :=
  (assignments.reverse.find? fun assignment => assignment.1 == key).map Prod.snd

/-- Apply the content of a settings file. -/
def applyFile (settings : Settings) (content : String) :
    Except InvalidSetting Unit × Settings :=
  settings.applyLayer .file (lastAssigned? (fileAssignments content))

end Settings
end RingTape
