/-!
# Parsers — ordered choice over a list of characters, with soft and firm failures

A parser reads a beginning of its input and answers with a value and the rest, or fails.  The three
things a failure carries decide what an error report can say:

* it is **soft** or **firm**: a choice or a repetition gives up a soft failure and tries the next
  way; a firm one ends the whole parse (`commit` makes failures firm);
* the list of **expectations** that it has passed on its way out, innermost first (`expecting`);
* the **rest** of the input where it happened.  A sequence does not go back to where it began; a
  choice starts every alternative at the same place and answers with the failure of the last one.

`fix` ties the knot of a recursive grammar.  Its depth is bounded by the input, which costs nothing
when every turn of the recursion reads a character.
-/
namespace Phrasebook

/-- What an error report tells about the place of a failure. -/
inductive Expectation where
  /-- The failure lies inside a construct. -/
  | within (construct : String)
  /-- A construct lacks its closing character. -/
  | closing (c : Char)
  /-- Something that the words describe should have stood here. -/
  | described (words : String)
deriving DecidableEq, Repr

namespace Parser

structure Failure where
  firm     : Bool
  expected : List Expectation
  rest     : List Char
deriving DecidableEq, Repr

inductive Reply (α : Type) where
  | ok (value : α) (rest : List Char)
  | failed (failure : Failure)
deriving DecidableEq, Repr

end Parser

def Parser (α : Type) : Type := List Char → Parser.Reply α

namespace Parser

variable {α β : Type}

/-! ## Sequences -/

protected def pure (a : α) : Parser α := fun s => .ok a s

protected def bind (p : Parser α) (f : α → Parser β) : Parser β := fun s =>
  match p s with
  | .ok a rest => f a rest
  | .failed e  => .failed e

instance : Monad Parser where
  pure := Parser.pure
  bind := Parser.bind

/-! ## Failures -/

/-- Fails softly, right here. -/
def fail : Parser α := fun s => .failed ⟨false, [], s⟩

/-- Ends the whole parse, right here. -/
def abort : Parser α := fun s => .failed ⟨true, [], s⟩

/-- From here on there is no other way to read the input. -/
def commit (p : Parser α) : Parser α := fun s =>
  match p s with
  | .ok a rest => .ok a rest
  | .failed e  => .failed { e with firm := true }

/-- Adds an expectation to every failure that passes. -/
def expecting (x : Expectation) (p : Parser α) : Parser α := fun s =>
  match p s with
  | .ok a rest => .ok a rest
  | .failed e  => .failed { e with expected := e.expected ++ [x] }

/-! ## Choices -/

/-- The second way is tried where the first one began, and only after a soft failure. -/
protected def orElse (p : Parser α) (q : Unit → Parser α) : Parser α := fun s =>
  match p s with
  | .ok a rest => .ok a rest
  | .failed e  => if e.firm then .failed e else q () s

instance : OrElse (Parser α) := ⟨Parser.orElse⟩

def optional (p : Parser α) : Parser (Option α) := fun s =>
  match p s with
  | .ok a rest => .ok (some a) rest
  | .failed e  => if e.firm then .failed e else .ok none s

/-- Succeeds, without reading, where `p` succeeds. -/
def peek (p : Parser α) : Parser Unit := fun s =>
  match p s with
  | .ok _ _   => .ok () s
  | .failed e => .failed { e with rest := s }

/-! ## Characters -/

/-- The next character, if the table has a meaning for it. -/
def pick (table : Char → Option α) : Parser α
  | []        => .failed ⟨false, [], []⟩
  | c :: rest =>
    match table c with
    | some a => .ok a rest
    | none   => .failed ⟨false, [], c :: rest⟩

def satisfy (test : Char → Bool) : Parser Char := pick fun c => if test c then some c else none

def char (c : Char) : Parser Char := satisfy (· == c)

/-- Exactly these characters; where they do not stand, nothing is read. -/
def literal (text : List Char) : Parser Unit := fun s =>
  match text.isPrefixOf? s with
  | some rest => .ok () rest
  | none      => .failed ⟨false, [], s⟩

/-- All characters up to the first that fails the test, perhaps none. -/
def takeWhile (test : Char → Bool) : Parser (List Char) := fun s =>
  .ok (s.takeWhile test) (s.dropWhile test)

/-- All characters up to the first that fails the test, at least one. -/
def takeSome (test : Char → Bool) : Parser (List Char) := fun s =>
  match s.takeWhile test with
  | []      => .failed ⟨false, [], s⟩
  | c :: cs => .ok (c :: cs) (s.dropWhile test)

/-- Reads nothing, and fails where the next character passes the test. -/
def notNext (test : Char → Bool) : Parser Unit
  | []        => .ok () []
  | c :: rest => if test c then .failed ⟨false, [], c :: rest⟩ else .ok () (c :: rest)

/-! ## Repetition

The input itself is the bound: a round that reads a character leaves at least as many rounds as
there are characters left.  A soft failure ends the repetition where its round began. -/

def manyWithin (p : Parser α) : List Char → List α → Parser (List α)
  | [], read => fun s =>
    match p s with
    | .ok a rest => .ok (read.reverse ++ [a]) rest
    | .failed e  => if e.firm then .failed e else .ok read.reverse s
  | _ :: bound, read => fun s =>
    match p s with
    | .ok a rest => manyWithin p bound (a :: read) rest
    | .failed e  => if e.firm then .failed e else .ok read.reverse s

/-- As many as there are, perhaps none, of a parser that never succeeds on nothing. -/
def many (p : Parser α) : Parser (List α) := fun s => manyWithin p s [] s

/-- Items with a separator between each two.  A separator behind which no item stands is left
unread. -/
def sepBy (item : Parser α) (separator : Parser β) : Parser (List α) := do
  match ← optional item with
  | none       => pure []
  | some first => do
    let others ← many (do let _ ← separator; item)
    pure (first :: others)

/-! ## Recursion -/

def fixWithin (step : Parser α → Parser α) : List Char → Parser α
  | []         => step fail
  | _ :: bound => step (fixWithin step bound)

/-- The parser that `step` describes in terms of itself, for a `step` that reads a character
before it comes back to itself. -/
def fix (step : Parser α → Parser α) : Parser α := fun s => fixWithin step s s

end Parser

end Phrasebook
