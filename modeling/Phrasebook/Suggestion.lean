import Phrasebook.Repeats
/-!
# Suggestions — known names that a wrong name may have meant

Names are compared by edit distance over characters.  A long name may be two edits away, a short
one only one; what counts as long is measured in bytes.
-/
namespace Phrasebook

/-! ## Edit distance

Row `i` of the table holds the distances from the first `i` characters of one text to every
beginning of the other.  A row is computed from the one above it: an entry is one more than its
neighbour to the left or above, or what stands diagonally above it and one more unless the
characters agree, whichever is least. -/

def nextRow (x : Char) : Nat → Nat → List Char → List Nat → List Nat
  | left, diagonal, y :: ys, above :: row =>
    let entry := min (min (left + 1) (above + 1)) (diagonal + if x = y then 0 else 1)
    entry :: nextRow x entry above ys row
  | _, _, _, _ => []

/-- The row under `row`, for the next character `x` of the first text. -/
def rowBehind (ys : List Char) (row : List Nat) (x : Char) : List Nat :=
  match row with
  | []           => []
  | above :: row => (above + 1) :: nextRow x (above + 1) above ys row

/-- The least number of insertions, deletions and substitutions of a character that turn one text
into the other. -/
def editDistance (xs ys : List Char) : Nat :=
  ((xs.foldl (rowBehind ys) (List.range (ys.length + 1))).getLast?).getD 0

/-! ## Choosing -/

/-- The greatest distance at which a name is suggested. -/
def tolerance (target : String) : Nat := if 3 < target.utf8ByteSize then 2 else 1

/-- Nearer names come first, equally near ones in the order of their characters. -/
def nearer (a b : Nat × String) : Bool :=
  decide (a.1 < b.1) || (decide (a.1 = b.1) && decide (a.2 ≤ b.2))

/-- At most three of the available names, each once, nearest first. -/
def suggestions (target : String) (available : List String) : List String :=
  let scored := available.map fun name => (editDistance target.toList name.toList, name)
  let near := scored.filter fun s => decide (s.1 ≤ tolerance target)
  ((dropRepeats (near.mergeSort nearer)).take 3).map Prod.snd

end Phrasebook
