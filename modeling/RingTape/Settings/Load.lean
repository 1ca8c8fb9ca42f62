import RingTape.Settings.File
import RingTape.Text.Encoding

namespace RingTape
namespace Settings

/-!
# Where settings come from

The settings of a process start from the defaults.  The settings file of the
user comes first and the environment second, and an error in the first keeps
the second from being looked at.  A file that is missing, that is a
directory or that holds malformed text counts as absent.
-/

/-- A path below a directory.  The empty directory name is the working
directory, and a slash that is already there is not doubled. -/
def joinPath (directory name : String) : String :=
  if directory = "" ∨ directory.toList.getLast? = some '/' then
    directory ++ name
  else
    directory ++ "/" ++ name

/-- The home directory, if the environment names one.  An empty name is the
same as none, since it would otherwise stand for the working directory. -/
def home? (environment : String → Option String) : Option String :=
  (environment "HOME").filter (· ≠ "")

/-- The directory for settings files, if the environment names one.  The
variable for it is taken as it is, even when it is empty; only without it
does the home directory count. -/
def directory? (environment : String → Option String) : Option String :=
  match environment "XDG_CONFIG_HOME" with
  | some directory => some directory
  | none => (home? environment).map fun home => joinPath home ".config"

/-- The path of the user's settings file. -/
def filePath? (environment : String → Option String) : Option String :=
  (directory? environment).map fun directory => joinPath directory fileName

/-- The text of the user's settings file, if there is one. -/
def fileText? (environment : String → Option String) (file? : String → Option (List UInt8)) :
    Option String :=
  (filePath? environment).bind fun path => (file? path).bind Text.decode?

/-- The settings of a process that sees these variables and files. -/
def load (environment : String → Option String) (file? : String → Option (List UInt8)) :
    Except InvalidSetting Settings :=
  let fromFile : Except InvalidSetting Unit × Settings :=
    match fileText? environment file? with
    | none => (.ok (), {})
    | some content => applyFile {} content
  match fromFile with
  | (.error error, _) => .error error
  | (.ok (), settings) =>
    match settings.applyEnvironment environment with
    | (.error error, _) => .error error
    | (.ok (), settings) => .ok settings

end Settings
end RingTape
