/-!
# Splitting — the parts of a text between occurrences of a character
-/
namespace Phrasebook.Text

/-- The parts in front of, between and behind the separators; there is always one more part than
separators. -/
def split (separator : Char) : List Char → List (List Char)
  | []      => [[]]
  | c :: cs =>
    if c = separator then [] :: split separator cs
    else
      match split separator cs with
      | []            => [[c]]
      | part :: parts => (c :: part) :: parts

end Phrasebook.Text
