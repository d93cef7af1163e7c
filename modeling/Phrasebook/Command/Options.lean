import Phrasebook.Command.Usage
import Phrasebook.Subject
import Phrasebook.Value
/-!
# Options — the three commands and what they are asked to do
-/
namespace Phrasebook

structure CheckOptions where
  dirs   : List String
  json   : Bool
  /-- Warnings count as errors. -/
  strict : Bool

structure CoverageOptions where
  root    : String
  source  : String
  locales : List String
  /-- A missing key counts as an error. -/
  strict  : Bool
  json    : Bool

structure EvalOptions where
  root    : String
  locale  : String
  key     : String
  subject : Subject
  args    : List Value
  seed    : Option UInt64
  json    : Bool

inductive Command where
  | check (options : CheckOptions)
  | coverage (options : CoverageOptions)
  | eval (options : EvalOptions)

namespace Command

/-! ## Values of options -/

/-- Paths are not empty. -/
def checkPath (value : String) : Option UsageError :=
  if value.isEmpty then some .invalidValue else none

def checkBool (value : String) : Option UsageError :=
  if value = "true" ∨ value = "false" then none else some .invalidValue

def readSeed? (value : String) : Option UInt64 :=
  let digits :=
    match value.toList with
    | '+' :: digits => digits
    | digits        => digits
  (readDigits? digits).bind fun n => if n < 0x10000000000000000 then some (UInt64.ofNat n) else none

def checkSeed (value : String) : Option UsageError :=
  if (readSeed? value).isSome then none else some .unreadableValue

def checkCount (value : String) : Option UsageError :=
  if (readInt64? value.toList).isSome then none else some .unreadableValue

/-- Marks a value as the key of a message. -/
def keyMark : String := "key:"

/-- Reads a value of a lookup: a key behind its mark, an integer, a truth value, or else text. -/
def readValue? (text : String) : Option Value :=
  match keyMark.toList.isPrefixOf? text.toList with
  | some []   => none
  | some path => some (.key (String.ofList path))
  | none      =>
    match readInt64? text.toList with
    | some n => some (.int n)
    | none   =>
      match text with
      | "true"  => some (.bool true)
      | "false" => some (.bool false)
      | _       => some (.str text)

def checkValue (value : String) : Option UsageError :=
  if (readValue? value).isSome then none else some .unreadableValue

/-! ## The commands -/

def defaultRoot : String := "lang"

def flag (name : String) : Usage.Choice := { name := name, form := .flag }

def rootChoice : Usage.Choice := { name := "root", form := .single, check := checkPath }

def checkUsage : Usage :=
  { choices  := [flag "json", flag "strict"]
    places   := some { name := "dirs", form := .repeated, check := checkPath }
    required := ["dirs"] }

def coverageUsage : Usage :=
  { choices  := [rootChoice, { name := "source", form := .single },
      { name := "lang", form := .separated ',' }, flag "strict", flag "json"]
    required := ["lang"] }

def evalUsage : Usage :=
  { choices  := [rootChoice,
      { name := "lang", form := .single }, { name := "key", form := .single },
      { name := "bool", form := .single, check := checkBool }, { name := "chara", form := .single },
      flag "female", flag "player", flag "hidden", { name := "item", form := .single },
      { name := "count", form := .single, check := checkCount },
      { name := "arg", short := some 'a', form := .repeated, check := checkValue },
      { name := "seed", form := .single, check := checkSeed }, flag "json"]
    groups   := [["bool", "chara", "item"]]
    required := ["lang", "key"]
    requires := [("female", "chara"), ("player", "chara"), ("hidden", "chara"),
      ("count", "item")] }

def checkOf (g : Usage.Given) : CheckOptions :=
  { dirs := g.values "dirs", json := g.has "json", strict := g.has "strict" }

def coverageOf (g : Usage.Given) : CoverageOptions :=
  { root := (g.value? "root").getD defaultRoot, source := (g.value? "source").getD "en",
    locales := g.values "lang", strict := g.has "strict", json := g.has "json" }

/-- A character described by options; only the player has index 0. -/
def characterOf (g : Usage.Given) (name : String) : Character :=
  { index     := if g.has "player" then 0 else 1
    name      := name
    baseName  := name
    gender    := if g.has "female" then .female else .male
    isVisible := !g.has "hidden" }

/-- An item described by options; a single one goes without its count. -/
def itemOf (g : Usage.Given) (name : String) : Item :=
  let count := (((g.value? "count").bind fun v => readInt64? v.toList).map Int64.toInt).getD 1
  { index    := 0
    id       := 0
    count    := count
    name     := if count = 1 then name else String.ofList (decimal count) ++ " " ++ name
    baseName := name }

def subjectOf (g : Usage.Given) : Subject :=
  match g.value? "chara", g.value? "item", g.value? "bool" with
  | some name, _,         _          => .character (characterOf g name)
  | none,      some name, _          => .item (itemOf g name)
  | none,      none,      some value => .bool (value == "true")
  | none,      none,      none       => .none

def evalOf (g : Usage.Given) : EvalOptions :=
  { root    := (g.value? "root").getD defaultRoot
    locale  := (g.value? "lang").getD ""
    key     := (g.value? "key").getD ""
    subject := subjectOf g
    args    := (g.values "arg").filterMap readValue?
    seed    := (g.value? "seed").bind readSeed?
    json    := g.has "json" }

def commandNames : List String := ["check", "coverage", "eval"]

/-- What comes of words that do not begin with the name of a command: help, or what is wrong with
them.  Behind `--` no command may stand; a lone `-` is a word like others. -/
def wrongCommand : List String → UsageError
  | []                => .missingCommand
  | ["--"]            => .missingCommand
  | "--" :: word :: _ =>
    if ("help" :: commandNames).contains word then .unknownArgument else .unknownCommand
  | "help" :: topics  =>
    match topics with
    | []      => .help
    | [topic] => if ("help" :: commandNames).contains topic then .help else .unknownCommand
    | _       => .unknownCommand
  | word :: _         =>
    match word.toList with
    | ['-']            => .unknownCommand
    | '-' :: '-' :: cs =>
      match Usage.splitLong cs with
      | ("help", none)   => .help
      | ("help", some _) => .surplusValue
      | _                => .unknownArgument
    | '-' :: 'h' :: _  => .help
    | '-' :: _         => .unknownArgument
    | _                => .unknownCommand

/-- The command that the words of a command line ask for. -/
def ofWords : List String → Except UsageError Command
  | "check" :: args    => (checkUsage.read args).map fun g => .check (checkOf g)
  | "coverage" :: args => (coverageUsage.read args).map fun g => .coverage (coverageOf g)
  | "eval" :: args     => (evalUsage.read args).map fun g => .eval (evalOf g)
  | words              => .error (wrongCommand words)

end Command

end Phrasebook
