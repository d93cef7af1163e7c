import Phrasebook.Disk.Basic
import Phrasebook.Log
import Phrasebook.ParseError
/-!
# Load errors and load events
-/
namespace Phrasebook

inductive LoadError where
  | unreadable (path : String) (fault : IoFault)
  | resource (path : String) (reason : ParseError)
  | emptyList (path key : String)
  | template (path key : String) (reason : ParseError)
  /-- A key is defined twice, and that is not allowed. -/
  | duplicate (key first second : String)
  | script (path : String) (words : String)
deriving DecidableEq, Repr

def LoadError.message : LoadError → String
  | .unreadable path fault       => "failed to read '" ++ path ++ "': " ++ fault.message
  | .resource path reason        => path ++ ": " ++ reason.message
  | .emptyList path key          => path ++ ": empty list at '" ++ key ++ "'"
  | .template path key reason    =>
    path ++ ": invalid interpolation in '" ++ key ++ "': " ++ reason.message
  | .duplicate key first second  =>
    "duplicate key '" ++ key ++ "' in '" ++ second ++ "' (first defined in '" ++ first ++ "')"
  | .script path words           => "failed to load script '" ++ path ++ "': " ++ words

inductive LoadEvent where
  | textless (key : String)
  | loadedFile (path : String) (keys : Nat)
  /-- The definition of a key in `first` was replaced by one in `second`. -/
  | overwritten (key first second : String)
  | offeredScript (path : String)
  | loadedLocale (name : String) (keys : Nat)
deriving DecidableEq, Repr

/-- What a log shows of an event. -/
def LoadEvent.record : LoadEvent → Log.Record
  | .textless key                 => ⟨.debug, "skipping non-text resource value", [("key", key)]⟩
  | .loadedFile path keys         =>
    ⟨.debug, "loaded resource file", [("path", path), ("keys", toString keys)]⟩
  | .overwritten key first second =>
    ⟨.warn, "duplicate key overwritten", [("key", key), ("first", first), ("second", second)]⟩
  | .offeredScript path           => ⟨.debug, "loading script", [("path", path)]⟩
  | .loadedLocale name keys       =>
    ⟨.debug, "loaded locale", [("language", name), ("keys", toString keys)]⟩

end Phrasebook
