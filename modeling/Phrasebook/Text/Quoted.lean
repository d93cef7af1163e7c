import Phrasebook.Text.Ignorable
import Phrasebook.Text.Mark
import Phrasebook.Text.Printable
/-!
# Quoted text — one line of printable characters between double quotes

Two styles share one shape: a character stands for itself or is written as an escape.  `display`
is the style of log fields, `json` the style of JSON strings.
-/
namespace Phrasebook.Text.Quoted

/-- The characters of `n` in base 16, lower case, at least one. -/
def hex (n : Nat) : List Char := Nat.toDigits 16 n

/-- At least `width` hexadecimal digits. -/
def hexPadded (width n : Nat) : List Char :=
  List.replicate (width - (hex n).length) '0' ++ hex n

/-- Is the character escaped in a log field?  One that is not printable would not be seen, and an
extender would be shown on the quote in front of it. -/
def isHidden (c : Char) : Bool := !isPrintable c || isIgnorable c || isExtender c

def displayChar (c : Char) : List Char :=
  match c with
  | '\x00' => ['\\', '0']
  | '\t'   => ['\\', 't']
  | '\n'   => ['\\', 'n']
  | '\r'   => ['\\', 'r']
  | '"'    => ['\\', '"']
  | '\\'   => ['\\', '\\']
  | c      => if isHidden c then '\\' :: 'u' :: '\x7b' :: hex c.toNat ++ ['\x7d'] else [c]

/-- A text as a log field shows it. -/
def display (text : String) : String :=
  String.ofList ('"' :: text.toList.flatMap displayChar ++ ['"'])

/-- Texts as a log field shows a list of them. -/
def displayList (texts : List String) : String :=
  "[" ++ ", ".intercalate (texts.map display) ++ "]"

def jsonChar (c : Char) : List Char :=
  match c with
  | '"'    => ['\\', '"']
  | '\\'   => ['\\', '\\']
  | '\x08' => ['\\', 'b']
  | '\x0c' => ['\\', 'f']
  | '\n'   => ['\\', 'n']
  | '\r'   => ['\\', 'r']
  | '\t'   => ['\\', 't']
  | c      => if c.toNat < 0x20 then '\\' :: 'u' :: hexPadded 4 c.toNat else [c]

/-- A text as a JSON string; characters above U+007F stand for themselves. -/
def json (text : String) : String :=
  String.ofList ('"' :: text.toList.flatMap jsonChar ++ ['"'])

end Phrasebook.Text.Quoted
