/-!
# Script hosts — the runtime behind a store

A locale may come with script files.  A store hands them to its script host and asks it about keys
that no resource defines.
-/
namespace Phrasebook

/-- A value of a script, rendered as it is. -/
inductive RawText where
  | text (s : String)
  /-- One of these is picked at random. -/
  | list (items : List String)
deriving DecidableEq, Repr

structure ScriptHost where
  /-- What the runtime knows about a key. -/
  raw?     : String → Option RawText
  /-- Why the runtime does not accept the script at a path. -/
  refusal? : String → Option String
  /-- The scripts accepted so far, oldest first. -/
  accepted : List String := []

def ScriptHost.load (h : ScriptHost) (path : String) : Except String ScriptHost :=
  match h.refusal? path with
  | some reason => .error reason
  | none        => .ok { h with accepted := h.accepted ++ [path] }

end Phrasebook
