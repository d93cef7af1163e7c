import Phrasebook.Builtin.Table
import Phrasebook.Subject
import Phrasebook.Value
/-!
# Registries — one table of functions for each kind of subject
-/
namespace Phrasebook

/-- Why a function did not answer. -/
inductive BuiltinError where
  /-- An argument is not, and cannot be read as, what it has to be. -/
  | coercion (index : Nat) (expected : String) (got : String)
deriving DecidableEq, Repr

def BuiltinError.message : BuiltinError → String
  | .coercion index expected got =>
    "argument " ++ toString index ++ " must be " ++ expected ++ ", got '" ++ got ++ "'"

/-- A text, or a complaint about the arguments. -/
abbrev Answer := Except BuiltinError String

abbrev Builtin := List Value → Language → Answer

/-- A function that also sees the subject of the lookup. -/
abbrev BuiltinOn (σ : Type) := σ → Builtin

structure Registry where
  argless   : Table Builtin := .empty
  boolean   : Table (BuiltinOn Bool) := .empty
  character : Table (BuiltinOn Character) := .empty
  item      : Table (BuiltinOn Item) := .empty

namespace Registry

def empty : Registry := {}

/-- The function that a name means for a subject. -/
def find? (r : Registry) (name : String) (subject : Subject) (language : Language) :
    Option Builtin :=
  match subject with
  | .none        => r.argless.get? name language
  | .bool b      => (r.boolean.get? name language).map (· b)
  | .character c => (r.character.get? name language).map (· c)
  | .item i      => (r.item.get? name language).map (· i)

def has (r : Registry) (kind : SubjectKind) (name : String) (language : Language) : Bool :=
  match kind with
  | .none      => r.argless.contains name language
  | .bool      => r.boolean.contains name language
  | .character => r.character.contains name language
  | .item      => r.item.contains name language

def hasAny (r : Registry) (name : String) (language : Language) : Bool :=
  SubjectKind.all.any fun kind => r.has kind name language

/-- The names that mean something for a kind of subject, in ascending order. -/
def names (r : Registry) (kind : SubjectKind) (language : Language) : List String :=
  match kind with
  | .none      => r.argless.names language
  | .bool      => r.boolean.names language
  | .character => r.character.names language
  | .item      => r.item.names language

end Registry

/-- The argument at an index as a truth value; `none` if there is no such argument. -/
def optionalBool (args : List Value) (index : Nat) : Except BuiltinError (Option Bool) :=
  match args[index]? with
  | none   => .ok none
  | some v =>
    match v.asBool with
    | some b => .ok (some b)
    | none   => .error (.coercion index "a boolean" v.display)

end Phrasebook
