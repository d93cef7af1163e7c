import Phrasebook.Parser.Numeral
import Phrasebook.Resource.Basic
import Phrasebook.Text.Blank
import Phrasebook.Text.Escape
import Phrasebook.Text.Utf8
/-!
# The grammar of resource files

    file   ::= gap ( entry gap ( "," gap )? )*
    entry  ::= key gap ( "=" gap value | block )
    key    ::= identifier | string              -- not empty, and without a dot
    value  ::= string | list | block | number | boolean
    block  ::= "{" gap ( entry gap ( "," gap )? )* "}"
    list   ::= "[" gap ( string gap ( "," gap string gap )* ( "," gap )? )? "]"
    gap    ::= ( blank | "#" … | "//" … | "/*" … "*/" )*

A string stands between double quotes on one line.  Outside of spans its backslash escapes are
decoded; a span is kept as it is written, up to the brace that closes it, for the grammar of
templates to read.  Inside a span a string argument may be written `\"…\"`, which is kept as `"…"`,
so that a span needs no second way of writing its strings.
-/
namespace Phrasebook.Resource

open Phrasebook.Parser

/-! ## Gaps -/

def lineComment : Parser Unit := do
  literal ['#'] <|> literal ['/', '/']
  let _ ← takeWhile (· != '\n')

/-- What follows the first `*/`. -/
def behindCommentEnd : List Char → Option (List Char)
  | []                  => none
  | '*' :: '/' :: rest  => some rest
  | _ :: rest           => behindCommentEnd rest

def blockComment : Parser Unit := do
  literal ['/', '*']
  fun s =>
    match behindCommentEnd s with
    | some rest => .ok () rest
    | none      => .failed ⟨false, [], s⟩

def gap : Parser Unit := do
  let _ ← many ((do let _ ← takeSome Text.isBlank) <|> lineComment <|> blockComment)

/-! ## Spans in strings -/

/-- A backslash and what it escapes, both kept. -/
def keptEscape (test : Char → Bool) : Parser (List Char) := do
  let _ ← char '\\'
  let c ← satisfy test
  pure ['\\', c]

/-- A string argument with plain quotes, kept. -/
def quotedInSpan : Parser (List Char) := do
  let _ ← char '"'
  let body ← many (keptEscape (fun _ => true)
    <|> (do let c ← satisfy fun c => c != '"' && c != '\\' && c != '\n'; pure [c]))
  let _ ← char '"'
  pure ('"' :: body.flatten ++ ['"'])

/-- The quotes of a string argument that is written with escapes. -/
def escapedQuote : List Char := ['\\', '"']

/-- A string argument with escaped quotes; the quotes lose their backslashes. -/
def escapedQuotedInSpan : Parser (List Char) := do
  literal escapedQuote
  let body ← many (keptEscape (fun c => c != '"' && c != '\n')
    <|> takeSome fun c => c != '\\' && c != '"' && c != '\n')
  literal escapedQuote
  pure ('"' :: body.flatten ++ ['"'])

/-- A part of a span that is no brace and no line feed of its own. -/
def spanPart (span : Parser (List Char)) : Parser (List Char) :=
  span
    <|> quotedInSpan
    <|> escapedQuotedInSpan
    <|> keptEscape (· != '\n')
    <|> (do
      let c ← satisfy fun c => c != '{' && c != '}' && c != '"' && c != '\n'
      pure [c])

def spanStep (span : Parser (List Char)) : Parser (List Char) := do
  literal ['$', '{']
  let parts ← many (spanPart span)
  let _ ← char '}'
  pure ('$' :: '{' :: parts.flatten ++ ['}'])

/-- A span with all spans in it, as the grammar of templates will read it. -/
def span : Parser (List Char) := fix spanStep

/-! ## Strings -/

/-- `\$` in front of an opening brace: the template escape that keeps the brace from opening a
span. -/
def escapedDollar : Parser (List Char) := do
  literal ['\\', '$']
  peek (char '{')
  pure ['$', '$']

def stringPiece : Parser (List Char) :=
  span
    <|> escapedDollar
    <|> (do let _ ← char '\\'; let c ← pick Text.unescape; pure [c])
    <|> (do let c ← satisfy fun c => c != '"' && c != '\\' && c != '\n'; pure [c])

def quoted : Parser (List Char) :=
  expecting (.within "string") do
    let _ ← char '"'
    commit do
      let pieces ← many stringPiece
      let _ ← expecting (.closing '"') (char '"')
      pure pieces.flatten

/-! ## Keys and plain values -/

def isIdentifierStart (c : Char) : Bool := c.isAlpha || c == '_'

def isIdentifierRest (c : Char) : Bool := c.isAlphanum || c == '_' || c == '-'

def identifier : Parser (List Char) := do
  let first ← satisfy isIdentifierStart
  let others ← takeWhile isIdentifierRest
  pure (first :: others)

/-- May a quoted string name an entry?  A dot would make its dotted key that of another path. -/
def isKey (cs : List Char) : Bool := !cs.isEmpty && !cs.contains '.'

/-- A quoted string that is a key; any other is refused where it begins. -/
def quotedKey : Parser (List Char) := fun s =>
  match quoted s with
  | .ok cs rest => if isKey cs then .ok cs rest else .failed ⟨false, [], s⟩
  | .failed e   => .failed e

def key : Parser (List Char) :=
  identifier <|> do
    peek (char '"')
    commit (expecting (.described "non-empty key without '.'") quotedKey)

def number : Parser Double := do
  let n ← Numeral.parse
  notNext isIdentifierRest
  pure n.toDouble

def boolean : Parser Bool := do
  let b ← (do literal "true".toList; pure true) <|> (do literal "false".toList; pure false)
  notNext isIdentifierRest
  pure b

def comma : Parser Unit := do
  let _ ← char ','
  gap

def listItem : Parser String := do
  let cs ← quoted
  gap
  pure (String.ofList cs)

def list : Parser (List String) :=
  expecting (.within "list") do
    let _ ← char '['
    gap
    commit do
      let items ← sepBy listItem comma
      let _ ← optional comma
      let _ ← expecting (.closing ']') (char ']')
      pure items

/-! ## Blocks -/

def value (block : Parser (List (String × Value))) : Parser Value :=
  expecting (.described "string, list, block, number or boolean") <|
    (do let cs ← quoted; pure (.text (String.ofList cs)))
      <|> (do let items ← list; pure (.list items))
      <|> (do let entries ← block; pure (.block entries))
      <|> (do let x ← number; pure (.number x))
      <|> (do let b ← boolean; pure (.bool b))

/-- An entry, with the gap and the comma that may follow it. -/
def entry (block : Parser (List (String × Value))) : Parser (String × Value) := do
  let name ← key
  gap
  let v ← expecting (.within "entry value") <| commit <|
    (do let _ ← char '='; gap; value block)
      <|> (do let entries ← block; pure (.block entries))
  gap
  let _ ← optional comma
  pure (String.ofList name, v)

def blockStep (block : Parser (List (String × Value))) : Parser (List (String × Value)) :=
  expecting (.within "block") do
    let _ ← char '{'
    gap
    commit do
      let entries ← many (entry block)
      let _ ← expecting (.closing '}') (char '}')
      pure entries

def block : Parser (List (String × Value)) := fix blockStep

def file : Parser (List (String × Value)) := do
  gap
  many (entry block)

/-! ## Files -/

/-- The text behind one byte order mark. -/
def withoutMark : List Char → List Char
  | '\uFEFF' :: rest => rest
  | cs               => cs

/-- Parses the text of a resource file.  Positions are those in the text behind the mark. -/
def Tree.parse (text : String) : Except ParseError Tree :=
  (file.runAll (withoutMark text.toList)).map Tree.mk

def Tree.ofBytes (bytes : ByteArray) : Except ParseError Tree :=
  match Text.Utf8.decode? bytes with
  | some text => Tree.parse text
  | none      => .error .invalidUtf8

end Phrasebook.Resource
