import Phrasebook.Text.Split
/-!
# Usage — what the words of a command line give to the options of a command

`Usage` lists the options of a command and what has to hold between them; `Usage.read` goes through
the words from left to right.  The value of an option is judged when the next option or place
begins, or at the end of the words; an unknown word is reported before the value in front of it is
judged.  Only words that are right one by one are judged together, exclusions before requirements.
-/
namespace Phrasebook

/-- Why a command line is not carried out. -/
inductive UsageError where
  /-- It asks for help, which ends the reading. -/
  | help
  | missingCommand
  | unknownCommand
  | unknownArgument
  /-- Options that exclude each other, or one that may be given only once. -/
  | conflict
  | missingRequired
  /-- An option without its value, or a value that is not among the few that there are. -/
  | invalidValue
  /-- A value that cannot be read as what the option takes. -/
  | unreadableValue
  /-- A value for an option that takes none. -/
  | surplusValue
deriving DecidableEq, Repr

namespace Usage

/-- What an option takes. -/
inductive Form where
  /-- Nothing. -/
  | flag
  /-- Nothing, and no word behind it counts. -/
  | help
  /-- One value, and the option is given once. -/
  | single
  /-- One value whenever the option is given. -/
  | repeated
  /-- Values with this character between them whenever the option is given. -/
  | separated (separator : Char)
deriving DecidableEq, Repr

structure Choice where
  name  : String
  short : Option Char := none
  form  : Form
  /-- What is wrong with a value. -/
  check : String → Option UsageError := fun _ => none

end Usage

structure Usage where
  choices  : List Usage.Choice
  /-- What words that belong to no option are given to. -/
  places   : Option Usage.Choice := none
  /-- Options of which at most one may be given. -/
  groups   : List (List String) := []
  required : List String := []
  /-- The second option has to be given with the first one. -/
  requires : List (String × String) := []

namespace Usage

def helpChoice : Choice := { name := "help", short := some 'h', form := .help }

/-- The option of a usage that a test picks; every usage has help. -/
def choice? (u : Usage) (test : Choice → Bool) : Option Choice :=
  (helpChoice :: u.choices).find? test

/-- What was given: options by name with their values in order, a flag with no text. -/
abbrev Given := List (String × String)

def Given.has (g : Given) (name : String) : Bool := g.any fun given => given.1 == name

def Given.values (g : Given) (name : String) : List String :=
  (g.filter fun given => given.1 == name).map Prod.snd

def Given.value? (g : Given) (name : String) : Option String := (g.values name).head?

/-! ## One word at a time -/

structure State where
  given   : Given := []
  /-- The option under way, with its values so far. -/
  pending : Option (Choice × List String) := none
  /-- Does the option under way want the next word? -/
  wanting : Bool := false
  /-- Behind `--` no word names an option. -/
  literal : Bool := false

/-- The values of an option that are written as one. -/
def Choice.split (c : Choice) (value : String) : List String :=
  match c.form with
  | .separated separator => (Text.split separator value.toList).map String.ofList
  | _                    => [value]

/-- Records the values, up to the first one that something is wrong with. -/
def record (c : Choice) (s : State) : List String → Except UsageError State
  | []              => .ok s
  | value :: values =>
    match c.check value with
    | some e => .error e
    | none   => record c { s with given := s.given ++ [(c.name, value)] } values

/-- Judges an option with its values. -/
def State.accept (s : State) (c : Choice) (values : List String) : Except UsageError State :=
  match c.form, values with
  | .help,   _           => .error .help
  | .flag,   _           =>
    if s.given.has c.name then .error .conflict else record c s [""]
  | _,       []          => .error .invalidValue
  | .single, _ :: _      => if s.given.has c.name then .error .conflict else record c s values
  | _,       _ :: _      => record c s (values.flatMap c.split)

def State.settle (s : State) : Except UsageError State :=
  match s.pending with
  | none             => .ok s
  | some (c, values) => { s with pending := none, wanting := false }.accept c values

/-- Begins an option, with the value that is written in the same word. -/
def State.start (s : State) (c : Choice) (attached : Option String) : Except UsageError State :=
  match c.form, attached with
  | .help, some _     => .error .surplusValue
  | .help, none       => s.settle.bind fun s => s.accept c []
  | .flag, some _     => .error .surplusValue
  | .flag, none       => s.settle.bind fun s => s.accept c []
  | _,     some value => s.settle.bind fun s => s.accept c [value]
  | _,     none       =>
    s.settle.map fun s => { s with pending := some (c, []), wanting := true }

/-- A word that stands for itself. -/
def State.place (s : State) (u : Usage) (word : String) : Except UsageError State :=
  match u.places with
  | none       => .error .unknownArgument
  | some place =>
    match s.pending with
    | some (c, values) =>
      if c.name = place.name then .ok { s with pending := some (c, values ++ [word]) }
      else s.settle.map fun s => { s with pending := some (place, [word]) }
    | none             => .ok { s with pending := some (place, [word]) }

/-- `name` or `name=value`. -/
def splitLong (cs : List Char) : String × Option String :=
  let name := String.ofList (cs.takeWhile (· != '='))
  match cs.dropWhile (· != '=') with
  | []         => (name, none)
  | _ :: value => (name, some (String.ofList value))

def State.long (s : State) (u : Usage) (cs : List Char) : Except UsageError State :=
  let (name, attached) := splitLong cs
  match u.choice? fun c => c.name == name with
  | none   => .error .unknownArgument
  | some c => s.start c attached

/-- Short options in one word; the first that takes a value takes what is left of the word, without
an equals sign in front. -/
def State.short (s : State) (u : Usage) : List Char → Except UsageError State
  | []      => .ok s
  | x :: cs =>
    match u.choice? fun c => c.short == some x with
    | none   => .error .unknownArgument
    | some c =>
      match c.form, cs with
      | .help, _           => s.start c none
      | .flag, _           => (s.start c none).bind fun s => s.short u cs
      | _,     []          => s.start c none
      | _,     '=' :: rest => s.start c (some (String.ofList rest))
      | _,     rest        => s.start c (some (String.ofList rest))

/-- A word that names no option. -/
def State.plain (s : State) (u : Usage) (word : String) : Except UsageError State :=
  match s.pending, s.wanting && !s.literal with
  | some (c, values), true => .ok { s with pending := some (c, values ++ [word]), wanting := false }
  | _, _                   => s.place u word

def State.read (s : State) (u : Usage) (word : String) : Except UsageError State :=
  if s.literal then s.plain u word
  else
    match word.toList with
    | ['-', '-']      => .ok { s with literal := true }
    | '-' :: '-' :: cs => s.long u cs
    | '-' :: x :: cs  => s.short u (x :: cs)
    | _               => s.plain u word

/-! ## All words together -/

/-- Is there an option in the place of this one, in a group of which one may be given? -/
def replaced (u : Usage) (g : Given) (name : String) : Bool :=
  u.groups.any fun group =>
    group.contains name && group.any fun other => other != name && g.has other

/-- The options that have to be given. -/
def needed (u : Usage) (g : Given) : List String :=
  u.required ++ (u.requires.filter fun pair => g.has pair.1).map Prod.snd

def validate (u : Usage) (g : Given) : Except UsageError Given :=
  if u.groups.any fun group => decide (1 < (group.filter g.has).length) then .error .conflict
  else if (u.needed g).any fun name => !g.has name && !u.replaced g name then
    .error .missingRequired
  else .ok g

def read (u : Usage) (words : List String) : Except UsageError Given := do
  let s ← words.foldlM (fun s word => s.read u word) ({} : State)
  let s ← s.settle
  u.validate s.given

end Usage

end Phrasebook
