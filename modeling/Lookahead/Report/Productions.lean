import Lookahead.Grammar
import Lookahead.Json.Value
import Lookahead.Text.Tex

/-!
The report of a grammar's productions, by name: as plain text, for TeX, and as JSON.
-/

namespace Lookahead

structure ProductionsRow where
  left : String
  rights : List (List String)
deriving DecidableEq

structure ProductionsReport where
  epsilon : String
  rows : List ProductionsRow
deriving DecidableEq

/-- There is none if a production has an index that the grammar does not have. -/
def Grammar.productionsReport? (g : Grammar) : Option ProductionsReport := do
  let rows ← g.nonTerminals.mapM fun n => do
    return ⟨n.name, ← n.productions.mapM fun production => production.mapM g.name?⟩
  return ⟨g.epsilon, rows⟩

namespace ProductionsRow

def alignRight (width : Nat) (name : String) : String :=
  String.ofList (List.replicate (width - name.length) ' ') ++ name

/-- Productions after the first one stand under an empty left side. -/
def plainLines (width : Nat) (row : ProductionsRow) : List String :=
  row.rights.mapIdx fun i right =>
    let right := " ".intercalate right
    if i = 0 then alignRight width row.left ++ " -> " ++ right
    else alignRight width "" ++ "  | " ++ right

def plain (width : Nat) (row : ProductionsRow) : String :=
  "\n".intercalate (row.plainLines width)

def tex (epsilon : String) (row : ProductionsRow) : String :=
  let cell (name : String) := if name = epsilon then "\\epsilon" else Text.tex name
  let rights := row.rights.map fun right => " \\ ".intercalate (right.map cell)
  Text.tex row.left ++ " & \\rightarrow & " ++ " \\mid ".intercalate rights

def toJson (row : ProductionsRow) : Json :=
  .object [("left", .text row.left),
    ("rights", .array (row.rights.map fun right => .array (right.map .text)))]

end ProductionsRow

namespace ProductionsReport

/-- The widest left side, in characters. -/
def width (report : ProductionsReport) : Nat :=
  (report.rows.map (·.left.length)).foldl max 0

def plain (report : ProductionsReport) : String :=
  "\n".intercalate (report.rows.map (ProductionsRow.plain report.width))

def tex (report : ProductionsReport) : String :=
  "\\\\\n".intercalate
    ("\\[\\begin\x7barray\x7d\x7bcll\x7d" ::
      report.rows.map (ProductionsRow.tex report.epsilon) ++ ["\\end\x7barray\x7d\\]"])

def toJson (report : ProductionsReport) : Json :=
  .object [("productions", .array (report.rows.map ProductionsRow.toJson))]

def json (report : ProductionsReport) : String := report.toJson.render

end ProductionsReport

end Lookahead
