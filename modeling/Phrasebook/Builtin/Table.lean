import Std.Data.TreeMap
import Phrasebook.Language
import Phrasebook.Repeats
/-!
# Tables — functions by name, shared by all languages or owned by one

A name may stand for one function in every language and for another in a language of its own; where
both are there, the language's own function is meant.
-/
namespace Phrasebook

variable {φ : Type}

structure Table (φ : Type) where
  universal : Std.TreeMap String φ := ∅
  /-- The functions that are there only while their language is active. -/
  own       : Std.TreeMap Language (Std.TreeMap String φ) := ∅

namespace Table

def empty : Table φ := {}

/-- The function that a name stands for in this language only. -/
def own? (t : Table φ) (name : String) (language : Language) : Option φ :=
  t.own[language]?.bind fun functions => functions[name]?

def get? (t : Table φ) (name : String) (language : Language) : Option φ :=
  (t.own? name language).or t.universal[name]?

def contains (t : Table φ) (name : String) (language : Language) : Bool :=
  (t.get? name language).isSome

/-- Registers a function for every language. -/
def insertUniversal (t : Table φ) (name : String) (f : φ) : Table φ :=
  { t with universal := t.universal.insert name f }

/-- Registers a function that is there only while `language` is active. -/
def insert (t : Table φ) (language : Language) (name : String) (f : φ) : Table φ :=
  { t with own := t.own.insert language ((t.own.getD language ∅).insert name f) }

/-- The names for every language, then the language's own ones. -/
def listed (t : Table φ) (language : Language) : List String :=
  match t.own[language]? with
  | none           => t.universal.keys
  | some functions => t.universal.keys ++ functions.keys

/-- The names that mean something in a language, in ascending order, each once. -/
def names (t : Table φ) (language : Language) : List String :=
  dropRepeats ((t.listed language).mergeSort fun a b => decide (a ≤ b))

end Table

end Phrasebook
