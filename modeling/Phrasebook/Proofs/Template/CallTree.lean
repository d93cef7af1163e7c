import Phrasebook.Template.Basic
/-!
# Call trees — a call above the calls in its arguments

`_1` asks for a function as well, though it does not name it: it is a leaf of the trees.  Names are
listed from the root down, and functions are called from the leaves up; these are two orders of the
same nodes (`CallTree.postorder_perm_preorder`).
-/
namespace Phrasebook

/-- What a node of a call tree asks for. -/
inductive Request where
  /-- The function of this name. -/
  | call (name : String)
  /-- The function that tells the addressee, `_1`. -/
  | addressee
deriving DecidableEq, Repr

/-- The name that a request spells out. -/
def Request.spelled? : Request → Option String
  | .call name => some name
  | .addressee => none

/-- The requests that a call waits for before it is made itself. -/
inductive CallTree where
  | call (name : String) (inner : List CallTree)
  | addressee
deriving Repr

/-! ## The trees of an expression -/

/-- The tree of a position, which is a leaf or nothing. -/
def positionTrees (position : Nat) : List CallTree := if position = 1 then [.addressee] else []

mutual

/-- The tree of an argument, if a function is asked for in it. -/
def Arg.callTrees : Arg → List CallTree
  | .call name args => [.call name (Arg.callTreesAll args)]
  | .positional n   => positionTrees n
  | _               => []

def Arg.callTreesAll : List Arg → List CallTree
  | []          => []
  | arg :: args => arg.callTrees ++ Arg.callTreesAll args

end

def Node.callTrees : Node → List CallTree
  | .text _       => []
  | .call c       => [.call c.name (Arg.callTreesAll c.args)]
  | .positional n => positionTrees n

/-- The trees of the spans, from left to right. -/
def Expression.callTrees (e : Expression) : List CallTree := e.nodes.flatMap Node.callTrees

namespace CallTree

/-! ## Two orders -/

mutual

/-- Every request behind the requests that it waits for. -/
def postorder : CallTree → List Request
  | .call name inner => postorderAll inner ++ [.call name]
  | .addressee       => [.addressee]

def postorderAll : List CallTree → List Request
  | []      => []
  | t :: ts => t.postorder ++ postorderAll ts

end

mutual

/-- Every request before the requests that it waits for. -/
def preorder : CallTree → List Request
  | .call name inner => .call name :: preorderAll inner
  | .addressee       => [.addressee]

def preorderAll : List CallTree → List Request
  | []      => []
  | t :: ts => t.preorder ++ preorderAll ts

end

theorem postorderAll_eq_flatMap (ts : List CallTree) : postorderAll ts = ts.flatMap postorder := by
  induction ts with
  | nil => rfl
  | cons t ts ih => rw [postorderAll, ih, List.flatMap_cons]

theorem preorderAll_eq_flatMap (ts : List CallTree) : preorderAll ts = ts.flatMap preorder := by
  induction ts with
  | nil => rfl
  | cons t ts ih => rw [preorderAll, ih, List.flatMap_cons]

theorem postorderAll_append (ts us : List CallTree) :
    postorderAll (ts ++ us) = postorderAll ts ++ postorderAll us := by
  simp only [postorderAll_eq_flatMap, List.flatMap_append]

theorem preorderAll_append (ts us : List CallTree) :
    preorderAll (ts ++ us) = preorderAll ts ++ preorderAll us := by
  simp only [preorderAll_eq_flatMap, List.flatMap_append]

mutual

/-- Both orders list the same requests, each as often. -/
theorem postorder_perm_preorder : ∀ t : CallTree, t.postorder.Perm t.preorder
  | .call name inner => by
    rw [postorder, preorder]
    exact (List.perm_append_singleton _ _).trans ((postorderAll_perm_preorderAll inner).cons _)
  | .addressee => by
    rw [postorder, preorder]

theorem postorderAll_perm_preorderAll : ∀ ts : List CallTree,
    (postorderAll ts).Perm (preorderAll ts)
  | [] => by
    rw [postorderAll, preorderAll]
  | t :: ts => by
    rw [postorderAll, preorderAll]
    exact (postorder_perm_preorder t).append (postorderAll_perm_preorderAll ts)

end

end CallTree

/-! ## The names in an expression -/

open CallTree

theorem spelled_positionTrees (position : Nat) :
    (preorderAll (positionTrees position)).filterMap Request.spelled? = [] := by
  unfold positionTrees
  split <;> rfl

mutual

theorem Arg.names_eq_preorder : ∀ arg : Arg,
    arg.names = (preorderAll arg.callTrees).filterMap Request.spelled?
  | .call name args => by
    rw [Arg.names, namesAll_eq_preorder args, Arg.callTrees, preorderAll, preorder, preorderAll,
      List.append_nil]
    rfl
  | .positional n => by
    rw [Arg.callTrees, spelled_positionTrees, Arg.names]
    nofun
  | .str _ | .int _ | .float _ | .bool _ => rfl

theorem Arg.namesAll_eq_preorder : ∀ args : List Arg,
    Arg.namesAll args = (preorderAll (Arg.callTreesAll args)).filterMap Request.spelled?
  | [] => rfl
  | arg :: args => by
    rw [Arg.namesAll, names_eq_preorder arg, namesAll_eq_preorder args, Arg.callTreesAll,
      preorderAll_append, List.filterMap_append]

end

theorem Node.names_eq_preorder (node : Node) :
    node.names = (preorderAll node.callTrees).filterMap Request.spelled? := by
  cases node with
  | text s => rfl
  | call c => exact Arg.names_eq_preorder (.call c.name c.args)
  | positional n => exact (spelled_positionTrees n).symm

/-- The walk over an expression is the pre-order of its trees. -/
theorem Expression.names_eq_preorder (e : Expression) :
    e.names = (preorderAll e.callTrees).filterMap Request.spelled? := by
  rw [names, callTrees, preorderAll_eq_flatMap, List.flatMap_assoc, List.filterMap_flatMap]
  congr 1
  funext node
  rw [Node.names_eq_preorder, preorderAll_eq_flatMap]

end Phrasebook
