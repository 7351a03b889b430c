import Lookahead.Definition.Reader
import Lookahead.Grammar.Tables
import Lookahead.Report.Sets

/-!
The whole way from a document to a report of its lookahead sets.
-/

namespace Lookahead

/-- The report of the grammar's own sets. -/
def Grammar.ownReport? (g : Grammar) : Option SetsReport :=
  let first := g.firstSets
  g.setsReport? first (g.followSets first)

def readGrammar (document : String) : Except Rejection Grammar := do
  (← Definition.read document).build

/-- The same way with tables. -/
def readTables (document : String) : Except Tables.Stop Tables :=
  match Definition.read document with
  | .error rejection => .error (.rejected rejection)
  | .ok d => d.tables

/-- The report of a document's sets as JSON, or its rejection as an object with the message. -/
def analyse? (document : String) : Option String :=
  match readGrammar document with
  | .ok g => g.ownReport?.map SetsReport.json
  | .error rejection => some (Json.object [("error", .text rejection.message)]).render

end Lookahead
