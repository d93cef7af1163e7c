/-!
# Backslash escapes — the one table that resource strings and string arguments share
-/
namespace Phrasebook.Text

/-- The character that a backslash and `c` stand for, if they stand for one. -/
def unescape (c : Char) : Option Char :=
  match c with
  | 'n'  => some '\n'
  | 't'  => some '\t'
  | 'r'  => some '\r'
  | '"'  => some '"'
  | '\\' => some '\\'
  | '$'  => some '$'
  | _    => none

end Phrasebook.Text
