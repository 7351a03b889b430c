import Lookahead.Proofs.Grammar.Spelling
import Lookahead.Proofs.Json.ReadBack
import Lookahead.Report.ProductionsReader

/-!
Productions by name. They are the right sides of the rules as they were written, the report lists them in
the order of declaration, and who reads the report gets its rows.
-/

namespace Lookahead

open Json in
theorem ProductionsReport.fitsIn_toJson (report : ProductionsReport) : FitsIn nestingLimit report.toJson := by
  -- the report, its list of rows, a row, its list of right sides, and a right side
  rw [show nestingLimit = 122 + 1 + 1 + 1 + 1 + 1 from rfl]
  simp [toJson, ProductionsRow.toJson, FitsIn]

theorem ProductionsRow.ofJson?_toJson (row : ProductionsRow) : ofJson? row.toJson = some row := by
  have texts (right : List String) : (Json.array (right.map .text)).texts? = some right :=
    Grammar.mapM_map_eq_some fun _ _ => rfl
  have rights : (row.rights.map fun right => Json.array (right.map .text)).mapM Json.texts? =
      some row.rights := Grammar.mapM_map_eq_some fun right _ => texts right
  change ((row.rights.map fun right => Json.array (right.map .text)).mapM Json.texts?).bind
    (fun rights => some (ProductionsRow.mk row.left rights)) = some row
  rw [rights]
  rfl

/-- Nothing of a report is lost on the way through its text. -/
theorem ProductionsReport.readRows?_json (report : ProductionsReport) :
    readRows? report.json = some report.rows := by
  rw [readRows?, json, Json.read?_render report.fitsIn_toJson]
  exact Grammar.mapM_map_eq_some fun row _ => row.ofJson?_toJson

namespace Grammar

/-- Productions with names in place of indices, unless there is an index that the grammar does not have. -/
def spell? (g : Grammar) (productions : List (List Nat)) : Option (List (List String)) :=
  productions.mapM fun production => production.mapM g.name?

/-- The rules of each left side as one row, in the order of declaration. -/
def merged (rules : List Rule) : List ProductionsRow :=
  (leftSides rules).map fun name => ⟨name, rightsOf rules name⟩

variable {rules : List Rule} {start epsilon : String}

theorem spell?_rightsOf (rules : List Rule) (start epsilon name : String) :
    (ofRules rules start epsilon).spell? ((rightsOf rules name).map (·.map (ruleIndex rules epsilon))) =
      some (rightsOf rules name) :=
  mapM_map_eq_some fun _ listed => mapM_map_eq_some fun _ present =>
    name?_ruleIndex (isSpelled_of_mem_rightsOf listed present)

theorem productions?_bind_spell? (rules : List Rule) (start epsilon : String) (i : Nat) :
    ((ofRules rules start epsilon).productions? i).bind (ofRules rules start epsilon).spell? =
      if i < markerCount then none else (leftSides rules)[i - markerCount]?.map (rightsOf rules) := by
  split
  · rename_i marker
    rw [productions?, nonTerminal?, if_pos marker]
    rfl
  · rename_i above
    obtain ⟨k, rfl⟩ := Nat.exists_eq_add_of_le (Nat.le_of_not_lt above)
    rw [productions?_ofRules, Nat.add_sub_cancel_left]
    cases (leftSides rules)[k]? with
    | none => rfl
    | some name => exact spell?_rightsOf rules start epsilon name

/-- A nonterminal has the right sides of all rules with its name, token by token and in their order. -/
theorem spell?_productions {i : Nat} {name : String}
    (symbol : (ofRules rules start epsilon).symbol? i = some (.nonTerminal name)) :
    ((ofRules rules start epsilon).productions? i).bind (ofRules rules start epsilon).spell? =
      some (rightsOf rules name) := by
  obtain ⟨n, found⟩ :=
    Option.isSome_iff_exists.1 ((isNonTerminal_iff_symbol? _ i).2 ⟨name, symbol⟩)
  obtain ⟨other, -, rfl⟩ := exists_of_nonTerminal? found
  obtain rfl : name = other := by
    simpa using symbol.symm.trans (symbol?_of_nonTerminal? found)
  rw [productions?, found]
  exact spell?_rightsOf rules start epsilon name

def productionsRow? (g : Grammar) (n : NonTerminal) : Option ProductionsRow := do
  return ⟨n.name, ← g.spell? n.productions⟩

theorem productionsReport?_eq (g : Grammar) : g.productionsReport? =
    (g.nonTerminals.mapM g.productionsRow?).bind fun rows => some ⟨g.epsilon, rows⟩ := rfl

theorem productionsReport?_ofRules (rules : List Rule) (start epsilon : String) :
    (ofRules rules start epsilon).productionsReport? = some ⟨epsilon, merged rules⟩ := by
  have row (name : String) : (ofRules rules start epsilon).productionsRow?
      ⟨name, (rightsOf rules name).map (·.map (ruleIndex rules epsilon))⟩ =
        some ⟨name, rightsOf rules name⟩ := by
    rw [productionsRow?, spell?_rightsOf]
    rfl
  have rows : (ofRules rules start epsilon).nonTerminals.mapM
      (ofRules rules start epsilon).productionsRow? = some (merged rules) := by
    refine List.mapM_map.trans ?_
    exact mapM_eq_some_map fun name _ => row name
  rw [productionsReport?_eq, rows]
  rfl

end Grammar

end Lookahead
