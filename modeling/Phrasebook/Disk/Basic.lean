import Phrasebook.Text.Split
/-!
# Disks — what the paths of directories lead to

No more is needed of a file system than which paths lead to directories, and the contents of these.
A `Folder` lists what stands directly in a directory, in the order in which the system enumerates
it; that order carries no meaning, so whoever reads a folder sorts by name.
-/
namespace Phrasebook

/-- Why the system did not read something. -/
inductive IoFault where
  | notFound
  | notADirectory
  | denied
  /-- A name, or a whole path, is longer than the system takes. -/
  | nameTooLong
  /-- The system ends a name at U+0000, so none can hold one. -/
  | nulInName
  /-- The system's own words. -/
  | other (words : String)
deriving DecidableEq, Repr

def IoFault.message : IoFault → String
  | .notFound      => "No such file or directory (os error 2)"
  | .notADirectory => "Not a directory (os error 20)"
  | .denied        => "Permission denied (os error 13)"
  | .nameTooLong   => "File name too long (os error 36)"
  | .nulInName     => "file name contained an unexpected NUL byte"
  | .other words   => words

inductive Content where
  /-- A regular file, and what reading it gives. -/
  | file (bytes : Except IoFault ByteArray)
  /-- A directory, or anything else that is no regular file. -/
  | other

/-- The names in a directory, each with its content. -/
abbrev Folder := List (String × Content)

structure Disk where
  folder      : String → Except IoFault Folder
  /-- Is the path that of a directory?  One that cannot be read is still there. -/
  isDirectory : String → Bool

namespace Path

/-- Does the path hold the character that ends a name for the system? -/
def hasNul (path : String) : Bool := path.toList.contains '\x00'

/-- The path of a name in a directory.  A name that begins with a slash stands for itself. -/
def join (dir name : String) : String :=
  if name.toList.head? = some '/' then name
  else
    match dir.toList.getLast? with
    | none     => name
    | some '/' => dir ++ name
    | some _   => dir ++ "/" ++ name

/-- What stands behind the last dot of a name, unless the name begins with that dot. -/
def extension? (name : String) : Option String :=
  let back := name.toList.reverse
  match back.dropWhile (· != '.') with
  | _ :: _ :: _ => some (String.ofList (back.takeWhile (· != '.')).reverse)
  | _           => none

/-- The names on a path.  A `.` names nothing, and neither do two slashes in a row. -/
def names (path : String) : List String :=
  ((Text.split '/' path.toList).map String.ofList).filter fun name => name != "" && name != "."

/-- The last name on a path, unless that leads back up. -/
def fileName? (path : String) : Option String :=
  match (names path).getLast? with
  | none      => none
  | some name => if name = ".." then none else some name

end Path

def Folder.sorted (f : Folder) : Folder := f.mergeSort fun a b => decide (a.1 ≤ b.1)

/-- The regular files with an extension, in the order of their names, with their paths in `dir`. -/
def Folder.files (f : Folder) (dir extension : String) : List (String × Except IoFault ByteArray) :=
  f.sorted.filterMap fun (name, content) =>
    match content with
    | .file bytes => if Path.extension? name = some extension then some (Path.join dir name, bytes)
      else none
    | .other      => none

end Phrasebook
