import Phrasebook.Command.Options
import Phrasebook.Command.Outcome
import Phrasebook.Diagnostic
import Phrasebook.Json
import Phrasebook.Lint
import Phrasebook.Store.Load
/-!
# `check` — are the locale directories in order?

Every resource file is parsed on its own first, so that all that do not parse are reported, each
with a diagnostic.  Only a directory whose files all parse is loaded and linted.
-/
namespace Phrasebook

namespace Command

/-- A resource file that does not parse. -/
structure BadFile where
  path       : String
  error      : ParseError
  diagnostic : Diagnostic
deriving DecidableEq, Repr

def BadFile.message (f : BadFile) : String := f.path ++ ": " ++ f.error.message

/-- What was found in a directory. -/
structure Findings where
  dir         : String
  keys        : Nat := 0
  errors      : List String := []
  warnings    : List String := []
  diagnostics : List Diagnostic := []
deriving DecidableEq, Repr

def checkFile (path : String) (bytes : ByteArray) : Option BadFile :=
  match (Resource.Tree.ofBytes bytes).bind Resource.Tree.flatten with
  | .ok _    => none
  | .error e => some ⟨path, e, .ofParseError (Text.Utf8.decodeLossy bytes) e⟩

/-- Those of the files that do not parse. -/
def badFiles : List (String × Except IoFault ByteArray) → Except Report (List BadFile)
  | []                          => .ok []
  | (path, content) :: files =>
    match content with
    | .error fault => .error (.fault fault)
    | .ok bytes    => (badFiles files).map fun bad => (checkFile path bytes).toList ++ bad

/-- The language of a locale directory, by its name. -/
def directoryLanguage (dir : String) : Language :=
  match Path.fileName? dir with
  | some name => Language.ofCode name
  | none      => .english

/-- Loads and lints a directory whose files parse. -/
def checkLoad (disk : Disk) (dir : String) : Findings :=
  let store : Store := { source := .cycle #[], language := directoryLanguage dir }
  let loaded := store.init disk dir
  match loaded.result with
  | .ok keys => { dir := dir, keys := keys, warnings := loaded.store.lint.map LintWarning.message }
  | .error e => { dir := dir, errors := [e.message] }

/-- What is wrong with a directory.  One that cannot be read ends the whole command. -/
def checkDirectory (disk : Disk) (dir : String) : Except Report Findings := do
  let folder ← (disk.folder dir).mapError fun fault => .load (.unreadable dir fault)
  let bad ← badFiles (folder.files dir resourceExtension)
  if bad.isEmpty then pure (checkLoad disk dir)
  else
    pure
      { dir         := dir
        errors      := bad.map BadFile.message
        diagnostics := bad.map BadFile.diagnostic }

/-! ## Output -/

def Findings.json (f : Findings) : Json :=
  .obj [("dir", .str f.dir), ("keys", .num f.keys), ("errors", .texts f.errors),
    ("warnings", .texts f.warnings)]

def Findings.lines (f : Findings) : List String :=
  f.warnings.map fun warning => f.dir ++ ": " ++ yellow "warning:" ++ " " ++ warning

/-- A count over all directories. -/
def total (count : Findings → Nat) (all : List Findings) : Nat :=
  all.foldl (fun n found => n + count found) 0

def errorCount : List Findings → Nat := total fun f => f.errors.length

def warningCount : List Findings → Nat := total fun f => f.warnings.length

def summary (all : List Findings) : String :=
  "checked " ++ toString all.length ++ " director" ++ (if all.length = 1 then "y" else "ies") ++
    ": " ++ toString (total Findings.keys all) ++ " key(s), " ++ toString (errorCount all) ++
    " error(s), " ++ toString (warningCount all) ++ " warning(s)"

/-- Lines, each with its end. -/
def unlines (lines : List String) : String := String.join (lines.map (· ++ "\n"))

def checkText (all : List Findings) : String :=
  unlines (all.flatMap Findings.lines ++
    [(if errorCount all = 0 then green else red) (summary all)])

def checkOutput (json : Bool) (all : List Findings) : String :=
  if json then unlines [(Json.arr (all.map Findings.json)).render] else checkText all

/-- Errors are never all right, warnings are unless the check is strict. -/
def checkCode (strict : Bool) (all : List Findings) : Nat :=
  if 0 < errorCount all ∨ (strict = true ∧ 0 < warningCount all) then dataError else success

end Command

open Command

def CheckOptions.run (options : CheckOptions) (disk : Disk) : Except Report Outcome := do
  let all ← options.dirs.mapM (checkDirectory disk)
  pure
    { code   := checkCode options.strict all
      output := checkOutput options.json all
      notes  := if options.json then "" else unlines (all.flatMap Findings.errors) }

end Phrasebook
