import Phrasebook.Store.Error
/-!
# Outcomes of commands — what is printed, and how a command ends
-/
namespace Phrasebook.Command

/-- What a command prints, and its exit code. -/
structure Outcome where
  code   : Nat
  output : String
  /-- Printed beside the output. -/
  notes  : String := ""
deriving DecidableEq, Repr

/-- Why a command came to no outcome. -/
inductive Report where
  | load (error : LoadError)
  | fault (fault : IoFault)
  /-- The source locale has no directory. -/
  | noSource (source root : String)
  | locale (name : String) (error : LoadError)
deriving DecidableEq, Repr

def Report.message : Report → String
  | .load e               => e.message
  | .fault f              => f.message
  | .noSource source root => "source locale '" ++ source ++ "' not found under " ++ root
  | .locale name e        => "failed to load locale '" ++ name ++ "': " ++ e.message

def success : Nat := 0

/-- The exit code for data that is not in order. -/
def dataError : Nat := 65

/-- The exit code for a command that came to no outcome. -/
def failure : Nat := 70

/-! ## Colours of a terminal -/

def yellow (text : String) : String := "\x1b[33m" ++ text ++ "\x1b[39m"

def green (text : String) : String := "\x1b[32m" ++ text ++ "\x1b[39m"

def red (text : String) : String := "\x1b[31m" ++ text ++ "\x1b[39m"

def bold (text : String) : String := "\x1b[1m" ++ text ++ "\x1b[0m"

end Phrasebook.Command
