/-!
# Key stacks — the messages that are being rendered inside each other

A message that is given as a value renders inside the one that mentions it.  The stack refuses a
key that is on it already, and any key when it is full.
-/
namespace Phrasebook

structure KeyStack where
  limit : Nat
  /-- The innermost key first. -/
  keys  : List String := []
deriving DecidableEq, Repr

namespace KeyStack

/-- Why a key was not pushed. -/
inductive Refusal where
  /-- The keys from the outermost one to the one that came back. -/
  | cyclic (chain : List String)
  | tooDeep
deriving DecidableEq, Repr

def Refusal.message : Refusal → String
  | .cyclic chain => "cyclic reference detected: " ++ " -> ".intercalate chain
  | .tooDeep      => "maximum recursion depth exceeded"

/-- A full stack refuses every key, also one that is on it. -/
def push (s : KeyStack) (key : String) : Except Refusal KeyStack :=
  if s.limit ≤ s.keys.length then .error .tooDeep
  else if key ∈ s.keys then .error (.cyclic (key :: s.keys).reverse)
  else .ok { s with keys := key :: s.keys }

/-- Takes the innermost key off; an empty stack stays empty. -/
def pop (s : KeyStack) : KeyStack := { s with keys := s.keys.tail }

end KeyStack

end Phrasebook
