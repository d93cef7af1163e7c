import Phrasebook.Builtin.Registry
import Phrasebook.Plural
/-!
# The standard functions

The player is the addressee of every message and is spoken to in the second person.  Whom the
player cannot see is an `it` or a `something` to the functions that respect visibility.
-/
namespace Phrasebook.Standard

/-! ## Words -/

def addressee : Language → String
  | .japanese => "あなた"
  | _         => "you"

/-- What a character is called when it cannot be seen. -/
def unseen : Language → String
  | .japanese => "何か"
  | _         => "something"

/-- The ending of a verb in the third person; the addressee's verb has none. -/
def verbEnding (isAddressee needsE : Bool) : String :=
  match isAddressee, needsE with
  | true,  _     => ""
  | false, true  => "es"
  | false, false => "s"

inductive Case where
  | subject
  | possessive
  | object
  | reflexive
deriving DecidableEq, Repr

/-- A row of pronouns. -/
def Case.choose (case : Case) (subject possessive object reflexive : String) : String :=
  match case with
  | .subject    => subject
  | .possessive => possessive
  | .object     => object
  | .reflexive  => reflexive

def displayName (c : Character) (language : Language) : String :=
  if c.isPlayer then addressee language
  else if c.isVisible then c.name
  else unseen language

def englishPronoun (c : Character) (case : Case) (checkVisibility : Bool) : String :=
  if c.isPlayer then case.choose "you" "your" "you" "yourself"
  else if checkVisibility && !c.isVisible then case.choose "it" "its" "it" "itself"
  else
    match c.gender with
    | .male   => case.choose "he" "his" "him" "himself"
    | .female => case.choose "she" "her" "her" "herself"

def japanesePronoun (c : Character) (case : Case) : String :=
  let base :=
    if c.isPlayer then "あなた"
    else
      match c.gender with
      | .male   => "彼"
      | .female => "彼女"
  case.choose base (base ++ "の") base (base ++ "自身")

/-- The pronoun of a character whether it can be seen or not, in the active language. -/
def plainPronoun (c : Character) (case : Case) : Language → String
  | .japanese => japanesePronoun c case
  | _         => englishPronoun c case false

/-! ## Functions without a subject -/

def you : Builtin := fun _ language => .ok (addressee language)

def spaceIfNeeded : Builtin := fun _ language => .ok (if language = .japanese then "" else " ")

/-! ## Functions of a truth value: `true` is the addressee -/

/-- The second argument says whether the ending needs an `e`. -/
def ending (isAddressee : Bool) : Builtin := fun args _ =>
  (optionalBool args 1).map fun needsE => verbEnding isAddressee (needsE.getD false)

def boolEnding : BuiltinOn Bool := ending

def boolIs : BuiltinOn Bool := fun b _ _ => .ok (if b then "are" else "is")

/-! ## Functions of a character -/

def characterName : BuiltinOn Character := fun c _ language => .ok (displayName c language)

def characterBaseName : BuiltinOn Character := fun c _ _ => .ok c.baseName

def pronoun (case : Case) : BuiltinOn Character := fun c _ _ => .ok (englishPronoun c case true)

def pronounAnyway (case : Case) : BuiltinOn Character := fun c _ language =>
  .ok (plainPronoun c case language)

def characterEnding : BuiltinOn Character := fun c => ending c.isPlayer

def characterIs : BuiltinOn Character := fun c _ _ => .ok (if c.isPlayer then "are" else "is")

def characterHave : BuiltinOn Character := fun c _ _ => .ok (if c.isPlayer then "have" else "has")

def owned : BuiltinOn Character := fun c _ language =>
  .ok (if c.isPlayer then "your" else displayName c language ++ "'s")

def nameWithoutJob : BuiltinOn Character := fun c _ _ => .ok c.nameWithoutJob

/-- The character as the topic of a sentence; the addressee goes without saying. -/
def topic : BuiltinOn Character := fun c _ language =>
  .ok (if c.isPlayer then "" else displayName c language ++ "は")

/-! ## Functions of an item: verbs agree with its count -/

def isSingle (i : Item) : Bool := isSingular .english i.count

def itemName : BuiltinOn Item := fun i _ _ => .ok i.name

def itemBaseName : BuiltinOn Item := fun i _ _ => .ok i.baseName

def itemIs : BuiltinOn Item := fun i _ _ => .ok (if isSingle i then "is" else "are")

def itemEnding : BuiltinOn Item := fun i _ _ => .ok (if isSingle i then "s" else "")

def itemDoes : BuiltinOn Item := fun i _ _ => .ok (if isSingle i then "does" else "do")

/-! ## The tables -/

def universally {φ : Type} (t : Table φ) (functions : List (String × φ)) : Table φ :=
  functions.foldl (fun t f => t.insertUniversal f.1 f.2) t

def inLanguage {φ : Type} (language : Language) (t : Table φ) (functions : List (String × φ)) :
    Table φ :=
  functions.foldl (fun t f => t.insert language f.1 f.2) t

def argless : Table Builtin :=
  universally .empty [("you", you), ("space_if_needed", spaceIfNeeded)]

def boolean : Table (BuiltinOn Bool) := universally .empty [("s", boolEnding), ("is", boolIs)]

def character : Table (BuiltinOn Character) :=
  let universal := universally .empty
    [("name", characterName), ("basename", characterBaseName), ("he2", pronounAnyway .subject),
      ("his2", pronounAnyway .possessive), ("him2", pronounAnyway .object)]
  let english := inLanguage .english universal
    [("he", pronoun .subject), ("his", pronoun .possessive), ("him", pronoun .object),
      ("s", characterEnding), ("is", characterIs), ("have", characterHave),
      ("himself", pronoun .reflexive), ("his_owned", owned), ("name_nojob", nameWithoutJob)]
  inLanguage .japanese english [("kare_wa", topic)]

def item : Table (BuiltinOn Item) :=
  let universal := universally .empty [("name", itemName), ("basename", itemBaseName)]
  inLanguage .english universal [("is", itemIs), ("s", itemEnding), ("does", itemDoes)]

end Phrasebook.Standard

namespace Phrasebook

def Registry.standard : Registry :=
  { argless := Standard.argless, boolean := Standard.boolean, character := Standard.character,
    item := Standard.item }

end Phrasebook
