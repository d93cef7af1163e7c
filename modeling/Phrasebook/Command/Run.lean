import Phrasebook.Command.Coverage
import Phrasebook.Command.Eval
/-!
# Running a command
-/
namespace Phrasebook.Command

/-- The directories that a command reads. -/
def directories : Command → List String
  | .check options    => options.dirs
  | .coverage options => (options.source :: options.locales).map (Path.join options.root)
  | .eval options     => [Path.join options.root options.locale]

/-- Runs a command.  The random source serves lookups without a seed. -/
def run (disk : Disk) (source : Source) : Command → Except Report Outcome
  | .check options    => options.run disk
  | .coverage options => options.run disk
  | .eval options     => options.run disk source

end Phrasebook.Command
