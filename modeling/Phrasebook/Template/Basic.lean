import Phrasebook.Double
/-!
# Templates — compiled message texts

A message text is literal text with spans in it: `${name(arg, ...)}` calls a function, `${_N}` names
the `N`-th value of the lookup.  An `Expression` is the compiled form: the nodes of a text in order.
-/
namespace Phrasebook

/-- An argument of a call. -/
inductive Arg where
  /-- A nested call; its text is the argument. -/
  | call (name : String) (args : List Arg)
  | str (text : String)
  | int (n : Int64)
  | float (x : Double)
  | bool (b : Bool)
  /-- `_N`, bound when the message is rendered. -/
  | positional (n : Nat)
deriving Repr, Inhabited

/-- `name(arg, ...)` -/
structure Call where
  name : String
  args : List Arg
deriving Repr, Inhabited

inductive Node where
  | text (literal : String)
  | call (call : Call)
  | positional (n : Nat)
deriving Repr, Inhabited

structure Expression where
  nodes : List Node
deriving Repr, Inhabited

/-! ## Calls -/

mutual

/-- The names of the calls in an argument, a call before the calls in its arguments. -/
def Arg.names : Arg → List String
  | .call name args => name :: Arg.namesAll args
  | _               => []

def Arg.namesAll : List Arg → List String
  | []          => []
  | arg :: args => arg.names ++ Arg.namesAll args

end

/-- The names of a call and of all calls in its arguments, from left to right, a call before the
calls in its arguments. -/
def Call.names (c : Call) : List String := c.name :: Arg.namesAll c.args

def Node.names : Node → List String
  | .call c => c.names
  | _       => []

/-- The names of all calls in an expression, at any depth. -/
def Expression.names (e : Expression) : List String := e.nodes.flatMap Node.names

def Node.isText : Node → Bool
  | .text _ => true
  | _       => false

def Expression.isLiteral (e : Expression) : Bool := e.nodes.all Node.isText

end Phrasebook
