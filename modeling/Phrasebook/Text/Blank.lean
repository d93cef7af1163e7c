import Phrasebook.Text.Ranges
/-!
# Blank characters — what may stand between the tokens of a resource or a span

The class is Unicode's `White_Space` property, given as ranges of code points.  It is wider than
`Char.isWhitespace`, which knows four characters.
-/
namespace Phrasebook.Text

/-- The code points with the `White_Space` property, as closed ranges in ascending order. -/
def blankRanges : List (Nat × Nat) :=
  [(0x9, 0xD), (0x20, 0x20), (0x85, 0x85), (0xA0, 0xA0), (0x1680, 0x1680), (0x2000, 0x200A),
    (0x2028, 0x2029), (0x202F, 0x202F), (0x205F, 0x205F), (0x3000, 0x3000)]

def isBlank (c : Char) : Bool := inRanges blankRanges c

/-- The text without the blanks at its two ends. -/
def strip (cs : List Char) : List Char :=
  ((cs.dropWhile isBlank).reverse.dropWhile isBlank).reverse

end Phrasebook.Text
