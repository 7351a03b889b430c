import Lookahead.Definition
import Lookahead.Json.ValueReader
import Lookahead.Report.Productions

/-!
Rows of a report of productions, as those read them who get the report as JSON. A row can be taken for a
rule again.
-/

namespace Lookahead

namespace Json

def text? : Json → Option String
  | text value => some value
  | _ => none

def items? : Json → Option (List Json)
  | array items => some items
  | _ => none

def texts? (value : Json) : Option (List String) := do (← value.items?).mapM text?

def member? (key : String) : Json → Option Json
  | object members => members.lookup key
  | _ => none

end Json

namespace ProductionsRow

def ofJson? (value : Json) : Option ProductionsRow := do
  let left ← (← value.member? "left").text?
  let rights ← (← value.member? "rights").items?
  return ⟨left, ← rights.mapM Json.texts?⟩

def toRule (row : ProductionsRow) : Rule := ⟨row.left, row.rights⟩

end ProductionsRow

/-- The rows in the text of a report. -/
def ProductionsReport.readRows? (document : String) : Option (List ProductionsRow) := do
  let rows ← (← Json.read? document).member? "productions"
  (← rows.items?).mapM ProductionsRow.ofJson?

end Lookahead
