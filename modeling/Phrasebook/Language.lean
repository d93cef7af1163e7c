import Std.Data.TreeMap
import Phrasebook.Text.Blank
/-!
# Languages — the languages that have functions of their own

Locale directories are named by codes such as `en` or `ja-JP`.  Every code names a language; those
without functions of their own are `other`.
-/
namespace Phrasebook

inductive Language where
  | english
  | japanese
  | other
deriving DecidableEq, Repr, Inhabited, Ord

namespace Language

instance : Std.TransOrd Language where
  eq_swap {a b} := by cases a <;> cases b <;> rfl
  isLE_trans {a b c} := by cases a <;> cases b <;> cases c <;> decide

instance : Std.LawfulEqOrd Language where
  compare_self {a} := by cases a <;> rfl
  eq_of_compare {a b} := by cases a <;> cases b <;> decide

/-- The part of a code in front of its region. -/
def primaryTag (code : String) : List Char :=
  ((Text.strip code.toList).map Char.toLower).takeWhile fun c => c != '-' && c != '_'

/-- The language of a code, whatever the case of its letters and its region. -/
def ofCode (code : String) : Language :=
  match String.ofList (primaryTag code) with
  | "en" => .english
  | "jp" => .japanese
  | "ja" => .japanese
  | _    => .other

def code : Language → String
  | .english  => "en"
  | .japanese => "ja"
  | .other    => "und"

end Language

end Phrasebook
