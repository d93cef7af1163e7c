import Phrasebook.Language
/-!
# Plurals — which form of a word a count takes
-/
namespace Phrasebook

inductive PluralCategory where
  | one
  | other
deriving DecidableEq, Repr

/-- The cardinal category of a count, by its absolute value.  Japanese knows one form; languages
without functions of their own follow the English rule. -/
def PluralCategory.ofCount (language : Language) (n : Int) : PluralCategory :=
  match language with
  | .japanese => .other
  | .english  => if n.natAbs = 1 then .one else .other
  | .other    => if n.natAbs = 1 then .one else .other

/-- Does the count take the singular? -/
def isSingular (language : Language) (n : Int) : Bool :=
  decide (PluralCategory.ofCount language n = .one)

end Phrasebook
