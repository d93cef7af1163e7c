import Phrasebook.Disk.Tree
import Phrasebook.Main
import Phrasebook.Proofs.Builtin.Registrations
import Phrasebook.Proofs.Command.Check
import Phrasebook.Proofs.Lint
import Phrasebook.Proofs.Random.Uniform
import Phrasebook.Proofs.Render.Draws
import Phrasebook.Proofs.Render.Order
import Phrasebook.Proofs.Render.Transparent
import Phrasebook.Proofs.Resource.Layout
import Phrasebook.Proofs.Resource.Lookahead
import Phrasebook.Proofs.Store.Duplicates
import Phrasebook.Proofs.Store.Literal
import Phrasebook.Proofs.Store.Session
import Phrasebook.Proofs.Template.Failure
import Phrasebook.Proofs.Template.Concat
import Phrasebook.Proofs.Template.Openers
import Phrasebook.Proofs.Template.Wrapped
import Phrasebook.Proofs.Resource.LiteralOpener
import Phrasebook.Proofs.Parser.RunsOut
import Phrasebook.Proofs.Template.Truncated
import Phrasebook.Proofs.Command.Diagnostics
import Phrasebook.Proofs.Resource.Flatten
import Phrasebook.Proofs.Resource.Lists
import Phrasebook.Proofs.Store.Scripts
import Phrasebook.Proofs.Suggestion.Choice
import Phrasebook.Proofs.Value
import Phrasebook.Proofs.Command.Coverage
