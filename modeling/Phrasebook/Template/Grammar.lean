import Phrasebook.ParseError
import Phrasebook.Parser.Numeral
import Phrasebook.Template.Basic
import Phrasebook.Text.Blank
import Phrasebook.Text.Escape
/-!
# The grammar of templates

    text       ::= ( "$${" | span | run | "$" )*
    span       ::= "${" ( positional | call ) "}"
    call       ::= name "(" ( argument ( "," argument )* )? ")"
    argument   ::= "${" call "}" | string | positional | number | boolean | call
    positional ::= "_" digits

`$${` is a literal `${`, and a `$` in front of anything else is itself.  Blanks may stand between
the tokens inside a span.  Behind `${` and behind the parenthesis of a call there is no way back: a
span that is not well formed is an error, never literal text.
-/
namespace Phrasebook.Template

open Phrasebook.Parser

/-! ## Tokens -/

/-- Opens a span: a dollar sign and an opening brace. -/
def opener : List Char := ['$', '{']

/-- Stands for a literal span opener. -/
def escapedOpener : List Char := ['$', '$', '{']

def isNameStart (c : Char) : Bool := c.isAlpha

def isNameRest (c : Char) : Bool := c.isAlphanum || c == '_'

/-- The name of a function: an ASCII letter, then letters, digits and underscores. -/
def name : Parser (List Char) := do
  let first ← satisfy isNameStart
  let others ← takeWhile isNameRest
  pure (first :: others)

def blanks : Parser Unit := do
  let _ ← takeWhile Text.isBlank
  pure ()

/-- Positions are counted from one and in 64 bits. -/
def isPosition (n : Nat) : Bool := decide (1 ≤ n) && decide (n < 0x10000000000000000)

def positional : Parser Nat := do
  let _ ← char '_'
  let digits ← takeSome Char.isDigit
  notNext isNameRest
  if isPosition (decimalValue digits) then pure (decimalValue digits) else fail

/-- A numeral with a point is a floating-point number, one without is a 64-bit integer. -/
def number : Parser Arg := do
  let n ← Numeral.parse
  notNext isNameRest
  match n.places, n.toInt64? with
  | some _, _      => pure (.float n.toDouble)
  | none,   some k => pure (.int k)
  | none,   none   => abort

/-- `true` or `false`, where no longer name and no call begins. -/
def boolean : Parser Bool := do
  let b ← (do literal "true".toList; pure true) <|> (do literal "false".toList; pure false)
  notNext fun c => isNameRest c || c == '('
  pure b

def stringChar : Parser Char :=
  (do let _ ← char '\\'; pick Text.unescape) <|> satisfy fun c => c != '"' && c != '\\'

def stringLiteral : Parser (List Char) := do
  let _ ← char '"'
  commit do
    let cs ← many stringChar
    let _ ← expecting (.closing '"') (char '"')
    pure cs

def closeSpan : Parser Unit := do
  blanks
  let _ ← expecting (.closing '}') (char '}')

/-! ## Calls -/

/-- `${call}` in the place of an argument. -/
def wrappedCall (call : Parser Call) : Parser Call := do
  literal opener
  commit do
    blanks
    let c ← call
    closeSpan
    pure c

def argument (call : Parser Call) : Parser Arg :=
  (do let c ← wrappedCall call; pure (.call c.name c.args))
    <|> (do let cs ← stringLiteral; pure (.str (String.ofList cs)))
    <|> (do let n ← positional; pure (.positional n))
    <|> number
    <|> (do let b ← boolean; pure (.bool b))
    <|> (do let c ← call; pure (.call c.name c.args))

def comma : Parser Unit := do
  blanks
  let _ ← char ','
  blanks

/-- The arguments of a call and its closing parenthesis. -/
def arguments (call : Parser Call) : Parser (List Arg) :=
  expecting (.within "argument list") <| commit do
    blanks
    let args ← sepBy (argument call) comma
    blanks
    let _ ← expecting (.closing ')') (char ')')
    pure args

def callStep (call : Parser Call) : Parser Call := do
  let f ← name
  blanks
  let _ ← char '('
  let args ← arguments call
  pure ⟨String.ofList f, args⟩

def call : Parser Call := fix callStep

/-! ## Texts -/

/-- A span is a node of its own; literal text comes in pieces. -/
inductive Piece where
  | literal (cs : List Char)
  | span (node : Node)
deriving Repr

def span : Parser Node :=
  expecting (.within "interpolation") do
    literal opener
    commit do
      blanks
      let node ← (do let n ← positional; pure (Node.positional n))
        <|> (do let c ← call; pure (Node.call c))
      closeSpan
      pure node

def piece : Parser Piece :=
  (do literal escapedOpener; pure (.literal opener))
    <|> (do let node ← span; pure (.span node))
    <|> (do let run ← takeSome (· != '$'); pure (.literal run))
    <|> (do let _ ← char '$'; pure (.literal ['$']))

/-- A text node, if there is text for it. -/
def textNode : List Char → List Node
  | []      => []
  | c :: cs => [.text (String.ofList (c :: cs))]

/-- Joins neighbouring pieces of literal text, with the text in front of them held back to front. -/
def joinBehind : List Char → List Piece → List Node
  | held, []                    => textNode held.reverse
  | held, .literal cs :: pieces => joinBehind (cs.reverse ++ held) pieces
  | held, .span node :: pieces  => textNode held.reverse ++ node :: joinBehind [] pieces

/-- The nodes of a text: neighbouring pieces of literal text make one node. -/
def join (pieces : List Piece) : List Node := joinBehind [] pieces

end Phrasebook.Template

namespace Phrasebook

def Expression.parse (text : String) : Except ParseError Expression :=
  ((Parser.many Template.piece).runAll text.toList).map fun pieces => ⟨Template.join pieces⟩

end Phrasebook
