import Phrasebook.Template.Basic
/-!
# Entries — compiled messages
-/
namespace Phrasebook

inductive Entry where
  | single (expression : Expression)
  /-- One of these is picked at random whenever the message is rendered. -/
  | variants (expressions : List Expression)
deriving Repr, Inhabited

def Entry.expressions : Entry → List Expression
  | .single e    => [e]
  | .variants es => es

end Phrasebook
