import Std.Data.TreeSet
import Phrasebook.Double
import Phrasebook.Json
import Phrasebook.Text.Split
import Phrasebook.Text.Width
/-!
# Coverage — which messages of a source locale another locale defines
-/
namespace Phrasebook

/-- A set of keys, in ascending order. -/
abbrev KeySet := Std.TreeSet String

/-- How the keys of a locale compare to those of the source. -/
structure Coverage where
  locale     : String
  translated : Nat
  total      : Nat
  /-- Keys of the source that the locale lacks, in ascending order. -/
  missing    : List String
  /-- Keys that only the locale has, in ascending order. -/
  extra      : List String
deriving DecidableEq, Repr

namespace Coverage

def compare (locale : String) (source target : KeySet) : Coverage :=
  { locale     := locale
    translated := (source.toList.filter target.contains).length
    total      := source.size
    missing    := source.toList.filter fun key => !target.contains key
    extra      := target.toList.filter fun key => !source.contains key }

def isComplete (c : Coverage) : Bool := c.missing.isEmpty

/-- The translated part in whole percent; without any keys there is none. -/
def percent (c : Coverage) : String :=
  if c.total = 0 then "-"
  else toString ((Double.ofRatio false c.translated c.total).scaleBy 100).round ++ "%"

def json (c : Coverage) : Json :=
  .obj [("language", .str c.locale), ("translated", .num c.translated), ("total", .num c.total),
    ("missing", .texts c.missing), ("extra", .texts c.extra)]

/-! ## The table

One row per locale inside a border.  A cell may have several lines, and a row has as many lines as
its highest cell.  The columns are as wide as the widest line in them and one space on either side,
and one space apart. -/

def header : List String := ["Locale", "Keys", "%", "Missing", "Extra"]

def cells (c : Coverage) : List String :=
  [c.locale, toString c.translated ++ "/" ++ toString c.total, c.percent,
    toString c.missing.length, toString c.extra.length]

/-- The lines of a row.  Below its last line a cell is empty. -/
def rowLines (row : List String) : List (List String) :=
  let parts := row.map fun cell => (Text.split '\n' cell.toList).map String.ofList
  (List.range (parts.foldl (fun height cell => max height cell.length) 0)).map fun i =>
    parts.map fun cell => cell[i]?.getD ""

def spaces (n : Nat) : String := String.ofList (List.replicate n ' ')

/-- The first cell of a line stands at the left of its column, the others at the right. -/
def alignCells : List Nat → List String → List String
  | [],               _             => []
  | _,                []            => []
  | width :: widths, cell :: others =>
    (cell ++ spaces (width - Text.width cell)) ::
      (widths.zip others).map fun (width, cell) => spaces (width - Text.width cell) ++ cell

def line (widths : List Nat) (cells : List String) : String :=
  "│ " ++ "   ".intercalate (alignCells widths cells) ++ " │"

/-- A horizontal border between two corners. -/
def rule (left mid right : Char) (widths : List Nat) : String :=
  let inner := widths.foldl (fun n width => n + width + 3) 0 - 1
  String.ofList (left :: List.replicate inner mid ++ [right])

def widths (lines : List (List String)) : List Nat :=
  lines.foldl (fun widest cells => widest.zipWith max (cells.map Text.width))
    (header.map Text.width)

def tableLines (coverages : List Coverage) : List String :=
  let lines := coverages.flatMap fun c => rowLines c.cells
  let w := widths lines
  [rule '┌' '─' '┐' w, line w header, rule '╞' '═' '╡' w] ++ lines.map (line w) ++
    [rule '└' '─' '┘' w]

def table (coverages : List Coverage) : String := "\n".intercalate (tableLines coverages)

end Coverage

end Phrasebook
