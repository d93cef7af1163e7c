import Phrasebook.Command.Check
import Phrasebook.Random.ChaCha
/-!
# `eval` — the text of one message
-/
namespace Phrasebook

open Command

/-- Loads a locale and renders a message of it.  The random source is that of the seed, or the one
that is given. -/
def EvalOptions.run (options : EvalOptions) (disk : Disk) (source : Source) :
    Except Report Outcome :=
  let store : Store :=
    { source := (options.seed.map Source.seeded).getD source, root := options.root }
  let loaded := store.load disk options.locale
  match loaded.result with
  | .error e => .error (.locale options.locale e)
  | .ok _    =>
    let store := loaded.store
    let text := (store.lookupWith options.key options.subject options.args).text
    let result : Json :=
      .obj [("key", .str options.key), ("language", .str store.language.code),
        ("result", .str text)]
    let known := store.contains options.key
    .ok
      { code   := if known then success else dataError
        output := unlines [if options.json then result.render else text]
        notes  := if known then ""
          else "warning: key '" ++ options.key ++ "' is not defined\n" }

end Phrasebook
