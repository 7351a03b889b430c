import Lookahead.FollowSets
import Lookahead.Json.Value
import Lookahead.Text.Tex

/-!
The report of FIRST and FOLLOW sets, by name: as plain text, for TeX, and as JSON. The sets need
not be those of the grammar; a symbol that they have no entry for is shown with the empty set.
-/

namespace Lookahead

structure NonTerminalRow where
  name : String
  nullable : Bool
  first : List String
  follow : List String
deriving DecidableEq

structure TerminalRow where
  name : String
  first : List String
deriving DecidableEq

structure SetsReport where
  epsilon : String
  nonTerminals : List NonTerminalRow
  terminals : List TerminalRow
deriving DecidableEq

namespace Grammar

/-- Sorted names, with epsilon and the end mark after all others. There is no listing of a set with
an index that the grammar does not have. -/
def listing? (g : Grammar) (s : IndexSet) : Option (List String) := do
  let plain := s.filter fun i => i != epsilonIndex && i != endMarkIndex
  let names ← plain.toList.mapM g.name?
  return sortNames names ++ (if epsilonIndex ∈ s then [g.epsilon] else []) ++
    (if endMarkIndex ∈ s then [endMark] else [])

def setsReport? (g : Grammar) (first : FirstSets) (follow : FollowSets) : Option SetsReport := do
  let nonTerminals ← g.indexedNonTerminals.mapM fun (n, i) => do
    return ⟨n.name, first.isNullable i, ← g.listing? (first.get i),
      ← g.listing? ((follow.get? i).getD ∅)⟩
  let terminals ← g.indexedTerminals.mapM fun (name, i) => do
    return ⟨name, ← g.listing? (first.get i)⟩
  return ⟨g.epsilon, nonTerminals, terminals⟩

end Grammar

namespace SetsReport

def plainRow (name : String) (names : List String) : String :=
  name ++ ": \x7b" ++ ", ".intercalate names ++ "\x7d"

def plain (report : SetsReport) : String :=
  "\n".intercalate
    ("FIRST sets:" :: report.nonTerminals.map (fun row => plainRow row.name row.first) ++
      report.terminals.map (fun row => plainRow row.name row.first) ++
      "" :: "FOLLOW sets:" :: report.nonTerminals.map (fun row => plainRow row.name row.follow))

def texCell (epsilon : String) (names : List String) : String :=
  "\\ ".intercalate
    (names.map fun name => if name = epsilon then "$\\epsilon$" else Text.tex name)

def texNonTerminal (epsilon : String) (row : NonTerminalRow) : String :=
  Text.tex row.name ++ " & " ++ (if row.nullable then "true" else "false") ++ " & " ++
    texCell epsilon row.first ++ " & " ++ texCell epsilon row.follow

def texTerminal (epsilon : String) (row : TerminalRow) : String :=
  Text.tex row.name ++ " & " ++ texCell epsilon row.first

def tex (report : SetsReport) : String :=
  "\\begin\x7btabular\x7d\x7bc|c|c|c\x7d\nSymbol & Nullable & First & Follow\\\\\\hline\n" ++
    "\\\\\n".intercalate (report.nonTerminals.map (texNonTerminal report.epsilon)) ++
    "\\\\\n\\end\x7btabular\x7d\n\n\\begin\x7btabular\x7d\x7bc|c\x7d\n" ++
    "Symbol & First\\\\\\hline\n" ++
    "\\\\\n".intercalate (report.terminals.map (texTerminal report.epsilon)) ++
    "\\\\\n\\end\x7btabular\x7d"

def toJson (report : SetsReport) : Json :=
  let texts (names : List String) := Json.array (names.map .text)
  .object [
    ("non_terminals", .array (report.nonTerminals.map fun row =>
      .object [("name", .text row.name), ("nullable", .bool row.nullable),
        ("first", texts row.first), ("follow", texts row.follow)])),
    ("terminals", .array (report.terminals.map fun row =>
      .object [("name", .text row.name), ("first", texts row.first)]))]

def json (report : SetsReport) : String := report.toJson.render

end SetsReport

end Lookahead
