import Phrasebook.Random.Source
import Phrasebook.Render.Event
import Phrasebook.Store.Entry
import Phrasebook.Store.Script
/-!
# Rendering — from a key, a subject and values to text

`Scene` is all that stays the same while a message renders; `Render.State` is what changes: the
stack of keys, the random source, and the events.  A value that is a key is rendered where it is
mentioned, inside the message that mentions it.  `renderKey` counts down the keys that may still be
opened, starting with the limit of the stack, so it never stops for want of count: a key that was
pushed had room.
-/
namespace Phrasebook

/-- What a message is rendered against. -/
structure Scene where
  entry?   : String → Option Entry
  raw?     : String → Option RawText
  registry : Registry
  language : Language
  subject  : Subject
  /-- The values of `_2`, `_3` and so on. -/
  args     : List Value

/-- The value that the caller gave for a position.  The first position is the subject's. -/
def callerValue? (args : List Value) (position : Nat) : Option Value :=
  if position < 2 then none else args[position - 2]?

namespace Render

structure State where
  stack  : KeyStack
  source : Source
  /-- The newest event first. -/
  trace  : List Event

end Render

abbrev RenderM := StateM Render.State

namespace Render

def note (event : Event) : RenderM Unit :=
  modify fun s => { s with trace := event :: s.trace }

def draw (size : Nat) : RenderM Nat := do
  let (index, source) := (← get).source.index size
  modify fun s => { s with source := source }
  note (.drew size index)
  pure index

def dispatch (scene : Scene) (name : String) (args : List Value) : RenderM String := do
  let result := scene.registry.dispatch name args scene.subject scene.language
  note (.dispatched name args result)
  pure (result.text name)

/-! ## Expressions -/

/-- `_1`: a truth value is itself; otherwise the subject's name, or the addressee without one. -/
def addressee (scene : Scene) : RenderM Value :=
  match scene.subject with
  | .bool b      => pure (.bool b)
  | .none        => Value.str <$> dispatch scene "you" []
  | .character _ => Value.str <$> dispatch scene "name" []
  | .item _      => Value.str <$> dispatch scene "name" []

/-- The value of a position.  A key among the caller's values is rendered by `reference`. -/
def valueAt (scene : Scene) (reference : String → RenderM String) (position : Nat) :
    RenderM Value :=
  if position = 1 then addressee scene
  else
    match callerValue? scene.args position with
    | some (.key key) => Value.str <$> reference key
    | some value      => pure value
    | none            => do
      note (.unbound position)
      pure (.str "")

mutual

def evalArg (scene : Scene) (reference : String → RenderM String) : Arg → RenderM Value
  | .call name args => do
    let values ← evalArgs scene reference args
    Value.str <$> dispatch scene name values
  | .str text       => pure (.str text)
  | .int n          => pure (.int n)
  | .float x        => pure (.float x)
  | .bool b         => pure (.bool b)
  | .positional n   => valueAt scene reference n

def evalArgs (scene : Scene) (reference : String → RenderM String) :
    List Arg → RenderM (List Value)
  | []          => pure []
  | arg :: args => do
    let value ← evalArg scene reference arg
    let values ← evalArgs scene reference args
    pure (value :: values)

end

def evalNode (scene : Scene) (reference : String → RenderM String) : Node → RenderM String
  | .text literal => pure literal
  | .call c       => do
    let values ← evalArgs scene reference c.args
    dispatch scene c.name values
  | .positional n => Value.display <$> valueAt scene reference n

def evalExpression (scene : Scene) (reference : String → RenderM String) (e : Expression) :
    RenderM String :=
  String.join <$> e.nodes.mapM (evalNode scene reference)

/-! ## Keys -/

/-- The expression to render, if there is one; a group of variants costs a draw, also a group of
one. -/
def choose : Entry → RenderM (Option Expression)
  | .single e           => pure (some e)
  | .variants []        => pure none
  | .variants (e :: es) => (fun index => (e :: es)[index]?) <$> draw (es.length + 1)

/-- A key that no resource defines. -/
def renderRaw (key : String) : Option RawText → RenderM String
  | some (.text s)               => pure s
  | some (.list [])              => pure ""
  | some (.list (item :: items)) =>
    (fun index => (item :: items).getD index "") <$> draw (items.length + 1)
  | none                         => do
    note (.missing key)
    pure ""

/-- What a key stands for, once it is on the stack. -/
def renderBody (scene : Scene) (reference : String → RenderM String) (key : String) :
    RenderM String :=
  match scene.entry? key with
  | none       => renderRaw key (scene.raw? key)
  | some entry => do
    match ← choose entry with
    | some e => evalExpression scene reference e
    | none   => pure ""

/-- Runs `body` with the key on the stack; a key that the stack refuses has no text. -/
def under (key : String) (body : RenderM String) : RenderM String := do
  match (← get).stack.push key with
  | .error reason => do
    note (.refused key reason)
    pure ""
  | .ok stack     => do
    modify fun s => { s with stack := stack }
    note (.opened stack.keys)
    let text ← body
    modify fun s => { s with stack := s.stack.pop }
    pure text

/-- Renders a key when `room` more keys may be opened. -/
def renderKey (scene : Scene) : Nat → String → RenderM String
  | 0,        key => under key (pure "")
  | room + 1, key => under key (renderBody scene (renderKey scene room) key)

end Render

/-- A text, what is left of the random source, and the events, oldest first. -/
structure Rendering where
  text   : String
  source : Source
  trace  : List Render.Event

def Rendering.of (action : RenderM String) (stack : KeyStack) (source : Source) : Rendering :=
  let (text, state) := action ⟨stack, source, []⟩
  ⟨text, state.source, state.trace.reverse⟩

/-- Renders a key with room for `limit` keys. -/
def Scene.render (scene : Scene) (limit : Nat) (source : Source) (key : String) : Rendering :=
  .of (Render.renderKey scene limit key) ⟨limit, []⟩ source

def Scene.evaluate (scene : Scene) (stack : KeyStack) (source : Source) (e : Expression) :
    Rendering :=
  .of (Render.evalExpression scene (Render.renderKey scene stack.limit) e) stack source

end Phrasebook
