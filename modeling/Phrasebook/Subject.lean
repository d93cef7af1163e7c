/-!
# Subjects — whom or what a message speaks about

A lookup has at most one subject.  Its kind selects the table that functions are taken from.
-/
namespace Phrasebook

inductive Gender where
  | male
  | female
deriving DecidableEq, Repr, Inhabited

/-- A person in the world of the host program.  The player is the addressee of every message. -/
structure Character where
  index          : Nat
  /-- With any title. -/
  name           : String
  /-- Without a title. -/
  baseName       : String
  gender         : Gender
  isPlayer       : Bool := decide (index = 0)
  isVisible      : Bool := true
  nameWithoutJob : String := baseName
deriving DecidableEq, Repr, Inhabited

/-- A stack of things of one type. -/
structure Item where
  index    : Nat
  /-- Tells the type of the things. -/
  id       : Nat
  count    : Int
  /-- With its count. -/
  name     : String
  /-- The name of the type. -/
  baseName : String
deriving DecidableEq, Repr, Inhabited

inductive Subject where
  | none
  | bool (b : Bool)
  | character (c : Character)
  | item (i : Item)
deriving DecidableEq, Repr, Inhabited

inductive SubjectKind where
  | none
  | bool
  | character
  | item
deriving DecidableEq, Repr, Inhabited

/-- Every kind, once. -/
def SubjectKind.all : List SubjectKind := [.none, .bool, .character, .item]

def SubjectKind.name : SubjectKind → String
  | .none      => "None"
  | .bool      => "Bool"
  | .character => "Character"
  | .item      => "Item"

def Subject.kind : Subject → SubjectKind
  | .none        => .none
  | .bool _      => .bool
  | .character _ => .character
  | .item _      => .item

/-- A short account of the subject: its kind and what identifies it. -/
def Subject.describe : Subject → String
  | .none        => "None"
  | .bool b      => "Bool(" ++ (if b then "true" else "false") ++ ")"
  | .character c => "Character \x7b index: " ++ toString c.index ++ " \x7d"
  | .item i      => "Item \x7b index: " ++ toString i.index ++ ", id: " ++ toString i.id ++ " \x7d"

end Phrasebook
