import RingTape.Text.Pieces

namespace RingTape

/-!
# Looking up files

A directory is known by the files and the further directories in it, each
under its path from there.  A path is followed name by name.  Empty names
and single dots stay where they are and double dots go up, but all three ask
for a directory to stay in or to leave; so a path that ends in a slash never
leads to a file.  Paths that leave the directory, or start at the root of
the file system, lead nowhere.
-/

/-- What a path leads to. -/
inductive Node where
  | file (content : List UInt8)
  | directory
  deriving DecidableEq, Repr

/-- The files and directories below a directory, each with the names on the
way to it. -/
abbrev Directory := List (List (List Char) × Node)

namespace Directory

/-- An entry from its path.  A path that ends in a slash is a directory. -/
def entry (path : String) (content : List UInt8) : List (List Char) × Node :=
  let names := (List.splitOn '/' path.toList).filter fun name => !name.isEmpty && name != ['.']
  (names, if path.toList.getLast? = some '/' then .directory else .file content)

/-- What the names on the way lead to.  Every entry implies the directories
on the way to it. -/
def node? (directory : Directory) (names : List (List Char)) : Option Node :=
  match directory.find? fun entry => entry.1 == names with
  | some (_, node) => some node
  | none =>
    if names.isEmpty || directory.any fun entry => names.isPrefixOf entry.1 then
      some .directory
    else
      none

/-- Follow names from the place that the names in `above` lead to, innermost
first. -/
def follow (directory : Directory) (above : List (List Char)) :
    List (List Char) → Option Node
  | [] => directory.node? above.reverse
  | name :: rest =>
    match directory.node? above.reverse with
    | some .directory =>
      if name = [] ∨ name = ['.'] then
        follow directory above rest
      else if name = ['.', '.'] then
        match above with
        | [] => none
        | _ :: outer => follow directory outer rest
      else
        follow directory (name :: above) rest
    | _ => none

/-- What a path leads to. -/
def lookup? (directory : Directory) (path : String) : Option Node :=
  match path.toList with
  | [] => none
  | '/' :: _ => none
  | characters => directory.follow [] (List.splitOn '/' characters)

/-- The content of the file that a path leads to. -/
def file? (directory : Directory) (path : String) : Option (List UInt8) :=
  match directory.lookup? path with
  | some (.file content) => some content
  | _ => none

end Directory
end RingTape
