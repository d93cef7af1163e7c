import Phrasebook.Command.Check
import Phrasebook.Coverage
/-!
# `coverage` — which messages of the source locale do the others define?

A locale without a directory defines nothing; the source locale has to have one.
-/
namespace Phrasebook

namespace Command

def localeKeys (disk : Disk) (root locale : String) : Except Report KeySet :=
  if disk.isDirectory (Path.join root locale) then
    let store : Store := { source := .cycle #[], root := root }
    let loaded := store.load disk locale
    match loaded.result with
    | .ok _    => .ok (Std.TreeSet.ofList loaded.store.keys)
    | .error e => .error (.locale locale e)
  else .ok ∅

def coverages (disk : Disk) (options : CoverageOptions) : Except Report (List Coverage) :=
  if disk.isDirectory (Path.join options.root options.source) then do
    let source ← localeKeys disk options.root options.source
    options.locales.mapM fun locale => do
      pure (Coverage.compare locale source (← localeKeys disk options.root locale))
  else .error (.noSource options.source options.root)

/-- The keys that a locale lacks, below its name. -/
def missingLines (c : Coverage) : List String :=
  ("\n" ++ yellow "missing in" ++ " " ++ bold c.locale ++ ":") :: c.missing.map ("  " ++ ·)

def coverageText (all : List Coverage) : String :=
  unlines (Coverage.table all :: (all.filter fun c => !c.isComplete).flatMap missingLines)

def coverageOutput (json : Bool) (all : List Coverage) : String :=
  if json then unlines [(Json.arr (all.map Coverage.json)).render] else coverageText all

def coverageCode (strict : Bool) (all : List Coverage) : Nat :=
  if strict && !all.all Coverage.isComplete then dataError else success

end Command

open Command

def CoverageOptions.run (options : CoverageOptions) (disk : Disk) : Except Report Outcome := do
  let all ← coverages disk options
  pure { code := coverageCode options.strict all, output := coverageOutput options.json all }

end Phrasebook
