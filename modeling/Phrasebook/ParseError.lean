import Phrasebook.Parser.Basic
import Phrasebook.Text.Position
/-!
# Parse errors — why a resource or a template was refused, and the words for it

Every error is a cause; the words are in `ParseError.message` alone.  `Parser.runAll` turns what a
parser answers into an error with its position: whoever fails at the end of the text has met an
unexpected end, whatever was expected there.
-/
namespace Phrasebook

/-- What was wrong at a position in the text. -/
inductive Problem where
  /-- The grammar was read to its end, and this character follows. -/
  | leftOver (c : Char)
  /-- The grammar failed, inside and in front of these, innermost first. -/
  | refused (expected : List Expectation)
  /-- A host program's own words. -/
  | stated (words : String)
deriving DecidableEq, Repr

inductive ParseError where
  | unreadable (position : Text.Position) (problem : Problem)
  | unexpectedEnd (position : Text.Position)
  | invalidUtf8
  | missingLocale
  | duplicateLocale
deriving DecidableEq, Repr

def Expectation.message : Expectation → String
  | .within construct => "Label(\"" ++ construct ++ "\")"
  | .closing c        => "Expected(CharLiteral('" ++ String.singleton c ++ "'))"
  | .described words  => "Expected(Description(\"" ++ words ++ "\"))"

def Problem.message : Problem → String
  | .leftOver c       => "unexpected character: '" ++ String.singleton c ++ "'"
  | .refused expected =>
    "parse error: Parsing Failure: ContextError \x7b context: [" ++
      ", ".intercalate (expected.map Expectation.message) ++ "], cause: None \x7d"
  | .stated words     => words

def ParseError.message : ParseError → String
  | .unreadable p problem =>
    "syntax error at " ++ toString p.line ++ ":" ++ toString p.column ++ ": " ++ problem.message
  | .unexpectedEnd p => "unexpected end of input at " ++ toString p.line ++ ":" ++ toString p.column
  | .invalidUtf8     => "invalid UTF-8 in input"
  | .missingLocale   => "\"locale\" object not found"
  | .duplicateLocale => "duplicate \"locale\" object"

/-- The error for a problem in front of `rest`, a suffix of the text. -/
def ParseError.before (text rest : List Char) (problem : Problem) : ParseError :=
  match rest with
  | []     => .unexpectedEnd (Text.Position.ofRest text rest)
  | _ :: _ => .unreadable (Text.Position.ofRest text rest) problem

/-- Parses a whole text, with nothing left over. -/
def Parser.runAll {α : Type} (p : Parser α) (text : List Char) : Except ParseError α :=
  match p text with
  | .ok a []          => .ok a
  | .ok _ (c :: rest) => .error (.before text (c :: rest) (.leftOver c))
  | .failed e         => .error (.before text e.rest (.refused e.expected))

end Phrasebook
