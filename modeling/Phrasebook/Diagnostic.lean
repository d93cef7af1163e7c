import Phrasebook.ParseError
/-!
# Diagnostics — a parse error and the place in the file that it is about
-/
namespace Phrasebook

structure Diagnostic where
  message : String
  help    : Option String
  /-- The byte of the file that the diagnostic points at. -/
  offset  : Nat
deriving DecidableEq, Repr

namespace Diagnostic

/-- The kind of all diagnostics about resource files. -/
def code : String := "loctext::resource"

/-- What stands at the marked byte. -/
def label : String := "here"

def oneLocaleHelp : String :=
  "every resource file needs exactly one top-level `locale \x7b ... \x7d` block"

/-- Where an error lies.  What concerns the whole file lies at its start. -/
def positionOf : ParseError → Text.Position
  | .unreadable p _  => p
  | .unexpectedEnd p => p
  | .invalidUtf8     => .start
  | .missingLocale   => .start
  | .duplicateLocale => .start

def messageOf : ParseError → String
  | .unreadable _ problem => "syntax error: " ++ problem.message
  | .unexpectedEnd _      => "unexpected end of file"
  | .invalidUtf8          => "invalid UTF-8"
  | .missingLocale        => ParseError.missingLocale.message
  | .duplicateLocale      => ParseError.duplicateLocale.message

def helpOf : ParseError → Option String
  | .unreadable _ _  => none
  | .unexpectedEnd _ => some "check for an unclosed block, list or string"
  | .invalidUtf8     => none
  | .missingLocale   => some oneLocaleHelp
  | .duplicateLocale => some oneLocaleHelp

/-- The diagnostic for an error in a file with this content. -/
def ofParseError (content : String) (e : ParseError) : Diagnostic :=
  ⟨messageOf e, helpOf e, Text.byteOffset content.toList (positionOf e)⟩

end Diagnostic

end Phrasebook
