import Phrasebook.Command.Run
/-!
# The command line

Reads the directories that a command names, runs it on them, and prints what came of it.
-/
namespace Phrasebook

/-- The system's fault as far as it concerns the program. -/
def IoFault.ofError : IO.Error → IoFault
  | .noFileOrDirectory ..     => .notFound
  | .noSuchThing ..           => .notFound
  | .inappropriateType ..     => .notADirectory
  | .permissionDenied ..      => .denied
  | .invalidArgument _ 36 _   => .nameTooLong
  | error                     => .other (toString error)

def readContent (entry : IO.FS.DirEntry) : IO Content := do
  match (← entry.path.metadata).type with
  | .file =>
    try
      pure (.file (.ok (← IO.FS.readBinFile entry.path)))
    catch error => pure (.file (.error (.ofError error)))
  | _     => pure .other

/-- What the system says about the path of a directory. -/
structure Directory where
  path    : String
  isThere : Bool
  folder  : Except IoFault Folder

def isDirectory (path : String) : IO Bool := do
  if Path.hasNul path then return false
  try
    (← IO.FS.realPath path).isDir
  catch _ => pure false

def readFolder (path : String) : IO (Except IoFault Folder) := do
  if Path.hasNul path then return .error .nulInName
  try
    let entries ← (← IO.FS.realPath path).readDir
    let folder ← entries.toList.mapM fun entry => do
      let content ← try readContent entry catch _ => pure Content.other
      pure (entry.fileName, content)
    pure (.ok folder)
  catch error => pure (.error (.ofError error))

def readDirectory (path : String) : IO Directory := do
  pure ⟨path, ← isDirectory path, ← readFolder path⟩

/-- A disk with these directories; nothing else is there. -/
def Disk.ofDirectories (directories : List Directory) : Disk :=
  let find? (path : String) := directories.find? fun directory => directory.path == path
  { folder      := fun path => ((find? path).map Directory.folder).getD (.error .notFound)
    isDirectory := fun path => (find? path).any Directory.isThere }

end Phrasebook

open Phrasebook

/-- The commands with what they need. -/
def usageLine : String :=
  "usage: check DIR... | coverage --lang LOCALE,... | eval --lang LOCALE --key KEY"

def main (words : List String) : IO UInt32 := do
  match Command.ofWords words with
  | .error .help  =>
    IO.println usageLine
    pure 0
  | .error _      =>
    IO.eprintln usageLine
    pure 2
  | .ok command =>
    let directories ← command.directories.mapM readDirectory
    let words ← (List.range 64).mapM fun _ => IO.rand 0 0xffffffff
    let source := Source.cycle (words.map UInt32.ofNat).toArray
    match command.run (Disk.ofDirectories directories) source with
    | .error report =>
      IO.eprintln report.message
      pure (UInt32.ofNat Command.failure)
    | .ok outcome   =>
      IO.eprint outcome.notes
      IO.print outcome.output
      pure (UInt32.ofNat outcome.code)
