import Phrasebook.Disk.Basic
/-!
# File trees — disks in memory

A tree lists the files and directories under a working directory, each by its names from there, in
the order in which they came to be.  Paths are relative to the working directory, which is a
directory without being listed.  Of what is above it the tree knows only that there are directories.
-/
namespace Phrasebook

/-- The names from the working directory to a file or directory. -/
abbrev Location := List String

inductive FileTree.Node where
  | file (bytes : ByteArray)
  | directory

structure FileTree where
  nodes : List (Location × FileTree.Node) := []

namespace FileTree

def node? (t : FileTree) (loc : Location) : Option Node :=
  (t.nodes.find? fun entry => entry.1 == loc).map Prod.snd

def isDirectory (t : FileTree) : Location → Bool
  | []  => true
  | loc =>
    match t.node? loc with
    | some .directory => true
    | _               => false

/-- The longest name that the system takes, in bytes. -/
def nameLimit : Nat := 255

/-- The longest path that the system takes, in bytes. -/
def pathLimit : Nat := 4095

/-- Where a path leads. -/
inductive Place where
  | inside (loc : Location)
  /-- A directory above the working directory. -/
  | outside
deriving DecidableEq, Repr

/-- Follows names from a place.  Outside, every name but that of the directory above is unknown. -/
def follow (t : FileTree) : Place → List String → Except IoFault Place
  | place,       []            => .ok place
  | .outside,    name :: names =>
    if name = ".." then t.follow .outside names
    else if nameLimit < name.utf8ByteSize then .error .nameTooLong
    else .error .notFound
  | .inside loc, name :: names =>
    if !t.isDirectory loc then .error .notADirectory
    else if name = ".." then
      t.follow (if loc.isEmpty then .outside else .inside loc.dropLast) names
    else if nameLimit < name.utf8ByteSize then .error .nameTooLong
    else if (t.node? (loc ++ [name])).isSome then t.follow (.inside (loc ++ [name])) names
    else .error .notFound

/-- Where a path leads.  The empty path leads nowhere, and a slash in front leads outside. -/
def resolve (t : FileTree) (path : String) : Except IoFault Place :=
  if Path.hasNul path then .error .nulInName
  else if pathLimit < path.utf8ByteSize then .error .nameTooLong
  else
    match path.toList with
    | []       => .error .notFound
    | '/' :: _ => t.follow .outside (Path.names path)
    | _ :: _   => t.follow (.inside []) (Path.names path)

def Node.content : Node → Content
  | .file bytes => .file (.ok bytes)
  | .directory  => .other

/-- An entry that lies directly in a directory, by its name. -/
def childOf (dir : Location) (entry : Location × Node) : Option (String × Content) :=
  match entry.1.getLast? with
  | some name => if entry.1 = dir ++ [name] then some (name, entry.2.content) else none
  | none      => none

/-- What stands in the directory at a path; nothing of the tree stands outside. -/
def folder (t : FileTree) (path : String) : Except IoFault Folder :=
  match t.resolve path with
  | .error fault      => .error fault
  | .ok .outside      => .ok []
  | .ok (.inside loc) =>
    if t.isDirectory loc then .ok (t.nodes.filterMap (childOf loc)) else .error .notADirectory

/-- Does a path lead to a directory? -/
def leadsToDirectory (t : FileTree) (path : String) : Bool :=
  match t.resolve path with
  | .error _          => false
  | .ok .outside      => true
  | .ok (.inside loc) => t.isDirectory loc

def disk (t : FileTree) : Disk := ⟨t.folder, t.leadsToDirectory⟩

/-! ## Changes -/

/-- Puts a node at a location, in the place of the one that is there. -/
def put (t : FileTree) (loc : Location) (node : Node) : FileTree :=
  if (t.node? loc).isSome then
    ⟨t.nodes.map fun entry => if entry.1 = loc then (loc, node) else entry⟩
  else ⟨t.nodes ++ [(loc, node)]⟩

/-- Makes a directory and those above it, where they are not there yet. -/
def makeDirectory (t : FileTree) (loc : Location) : FileTree :=
  (List.range loc.length).foldl (fun t n =>
    let above := loc.take (n + 1)
    if (t.node? above).isSome then t else t.put above .directory) t

def writeFile (t : FileTree) (loc : Location) (bytes : ByteArray) : FileTree :=
  (t.makeDirectory loc.dropLast).put loc (.file bytes)

def remove (t : FileTree) (loc : Location) : FileTree :=
  ⟨t.nodes.filter fun entry => entry.1 != loc⟩

end FileTree

end Phrasebook
