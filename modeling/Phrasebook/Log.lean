/-!
# Log records — what a program with logging shows of its events
-/
namespace Phrasebook.Log

inductive Level where
  | debug
  | warn
deriving DecidableEq, Repr

def Level.name : Level → String
  | .debug => "DEBUG"
  | .warn  => "WARN"

/-- A message with named fields. -/
structure Record where
  level   : Level
  message : String
  fields  : List (String × String) := []
deriving DecidableEq, Repr

end Phrasebook.Log
