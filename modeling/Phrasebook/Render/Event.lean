import Phrasebook.Builtin.Registry
import Phrasebook.Log
import Phrasebook.Render.KeyStack
import Phrasebook.Suggestion
import Phrasebook.Text.Quoted
/-!
# Render events — everything that happens while a message is rendered

Rendering never fails: whatever cannot be resolved leaves a placeholder or no text.  The events say
what became of each call, reference and draw, in the order in which they happened.
-/
namespace Phrasebook

/-- What a call by name came to. -/
inductive Dispatch where
  | answered (text : String)
  | rejected (reason : BuiltinError)
  | unknown
deriving DecidableEq, Repr

/-- Stands in a message for a call that has no text. -/
def placeholder (name : String) : String := "<unknown function (" ++ name ++ ")>"

def Dispatch.text (name : String) : Dispatch → String
  | .answered text => text
  | .rejected _    => placeholder name
  | .unknown       => placeholder name

def Registry.dispatch (r : Registry) (name : String) (args : List Value) (subject : Subject)
    (language : Language) : Dispatch :=
  match r.find? name subject language with
  | none   => .unknown
  | some f =>
    match f args language with
    | .ok text  => .answered text
    | .error e  => .rejected e

namespace Render

inductive Event where
  /-- A key began to render; the keys being rendered are these, itself in front. -/
  | opened (keys : List String)
  | refused (key : String) (reason : KeyStack.Refusal)
  | drew (size index : Nat)
  | missing (key : String)
  | unbound (position : Nat)
  | dispatched (name : String) (args : List Value) (result : Dispatch)
deriving DecidableEq, Repr

/-- What a log shows of an event. -/
def Event.record? (registry : Registry) (kind : SubjectKind) (language : Language) :
    Event → Option Log.Record
  | .opened _                        => none
  | .drew _ _                        => none
  | .dispatched _ _ (.answered _)    => none
  | .refused key reason              =>
    some ⟨.warn, "key reference not rendered", [("key", key), ("err", reason.message)]⟩
  | .missing key                     => some ⟨.debug, "missing key", [("key", key)]⟩
  | .unbound position                =>
    some ⟨.debug, "no value bound to positional", [("positional", toString position)]⟩
  | .dispatched name _ (.rejected e) =>
    some ⟨.debug, "builtin rejected its arguments", [("function", name), ("err", e.message)]⟩
  | .dispatched name _ .unknown      =>
    let near := suggestions name (registry.names kind language)
    some ⟨.debug, "unknown function",
      [("function", name), ("kind", kind.name), ("language", language.code),
        ("suggestions", Text.Quoted.displayList near)]⟩

end Render

end Phrasebook
