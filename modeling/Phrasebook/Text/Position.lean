/-!
# Positions — lines and columns of a text, and the bytes in front of them

A `Position` counts lines and columns from one, columns in characters.  `Position.after` reads it
off the consumed part of a text; `byteOffset` finds it again in the whole text and answers in bytes
of UTF-8.
-/
namespace Phrasebook.Text

structure Position where
  line   : Nat
  column : Nat
deriving DecidableEq, Repr, Inhabited

namespace Position

/-- The first character of every text. -/
def start : Position := ⟨1, 1⟩

/-- A line feed ends its line; every other character takes one column. -/
def advance (p : Position) (c : Char) : Position :=
  if c = '\n' then ⟨p.line + 1, 1⟩ else ⟨p.line, p.column + 1⟩

/-- The position right behind the consumed part of a text. -/
def after (consumed : List Char) : Position := consumed.foldl advance start

/-- The position of `rest`, a suffix of `whole`. -/
def ofRest (whole rest : List Char) : Position := after (whole.take (whole.length - rest.length))

end Position

/-- The number of bytes that the characters take in UTF-8. -/
def byteLength (cs : List Char) : Nat := cs.foldl (fun n c => n + c.utf8Size) 0

/-- The bytes in front of the character that stands `columns` characters behind the start of the
line that follows `lines` line feeds.  Columns run on past the end of their line, and a position
behind the text counts the whole text. -/
def bytesBefore : Nat → Nat → List Char → Nat
  | 0,         columns, cs => byteLength (cs.take columns)
  | _ + 1,     _,       [] => 0
  | lines + 1, columns, c :: cs =>
    c.utf8Size + bytesBefore (if c = '\n' then lines else lines + 1) columns cs

/-- The byte offset of a position in a text.  Line and column 0 are read as 1. -/
def byteOffset (cs : List Char) (p : Position) : Nat := bytesBefore (p.line - 1) (p.column - 1) cs

end Phrasebook.Text
