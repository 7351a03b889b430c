import Lookahead.Analysis
import Lookahead.Proofs.Events
import Lookahead.Proofs.FirstSets.Refinement
import Lookahead.Proofs.Grammar.Arena
import Lookahead.Proofs.Json.ReadBack
import Lookahead.Proofs.Report.Rows

/-!
The whole way from a document to a report, for every document. No look-up misses, no repetition is cut
short by its bound, and who reads the report back gets the sets by name, or the rejection.
-/

namespace Lookahead

namespace Grammar

/-- Both repetitions end with the first pass that adds nothing, and all symbols that events tell of
have names. -/
structure Completes (g : Grammar) : Prop where
  settles : ∃ n, g.settle g.evaluate = ⟨n + 1, g.refine^[n] g.evaluate⟩ ∧
    g.refine (g.refine^[n] g.evaluate) = g.refine^[n] g.evaluate ∧
    ∀ k < n, (g.refine^[k] g.evaluate).size < (g.refine^[k + 1] g.evaluate).size
  saturates : ∃ n, g.saturateFollow g.firstSets =
      ⟨n + 1, (g.followPass g.firstSets)^[n] g.initialGrowth⟩ ∧
    g.followPass g.firstSets ((g.followPass g.firstSets)^[n] g.initialGrowth) =
      (g.followPass g.firstSets)^[n] g.initialGrowth ∧
    ∀ k < n, ((g.followPass g.firstSets)^[k] g.initialGrowth).size <
      ((g.followPass g.firstSets)^[k + 1] g.initialGrowth).size
  reentered : ∀ symbol, .reentered symbol ∈ g.firstLog → (g.name? symbol).isSome
  grew : ∀ symbol size source, .grew symbol size source ∈ g.followLog g.firstSets →
    (g.name? symbol).isSome ∧ (g.name? source).isSome

variable {g : Grammar}

theorem completes_of_wellFormed (wellFormed : g.WellFormed) : g.Completes := by
  refine ⟨(ready_evaluate wellFormed).primed.exists_refine_iterate wellFormed, ?_, ?_, ?_⟩
  · obtain ⟨n, passes, result, -, -, unchanged, grows⟩ :=
      exists_followPass_iterate wellFormed.start g.firstSets
    rw [result] at unchanged
    refine ⟨n, ?_, unchanged, grows⟩
    rw [← passes, ← result]
  · intro symbol logged
    exact namesAll_firstLog g _ logged symbol (List.mem_singleton.2 rfl)
  · intro symbol size source logged
    simpa [Event.symbols] using namesAll_followLog g g.firstSets _ logged

/-- The value has a member for the nonterminals and one for the terminals, with a row for each of them
in order, and in the rows the names in the grammar's own sets. -/
def ReportedBy (g : Grammar) (value : Json) : Prop :=
  ∃ nonTerminals terminals,
    value = .object [
      ("non_terminals", .array (nonTerminals.map fun row =>
        .object [("name", .text row.name), ("nullable", .bool row.nullable),
          ("first", .array (row.first.map .text)), ("follow", .array (row.follow.map .text))])),
      ("terminals", .array (terminals.map fun row =>
        .object [("name", .text row.name), ("first", .array (row.first.map .text))]))] ∧
    List.Forall₂ g.DescribesNonTerminal g.indexedNonTerminals nonTerminals ∧
    List.Forall₂ g.DescribesTerminal g.indexedTerminals terminals

theorem exists_ownReport (wellFormed : g.WellFormed) (distinct : g.names.Nodup) :
    ∃ report, g.ownReport? = some report ∧ g.ReportedBy report.toJson := by
  obtain ⟨nonTerminals, terminals, found, rows⟩ := exists_setsReport wellFormed distinct
  exact ⟨_, found, nonTerminals, terminals, rfl, rows⟩

end Grammar

open Json in
theorem SetsReport.fitsIn_toJson (report : SetsReport) : FitsIn nestingLimit report.toJson := by
  -- the report, its list of rows, a row, and a set of names
  rw [show nestingLimit = 123 + 1 + 1 + 1 + 1 from rfl]
  simp [toJson, FitsIn]

theorem fitsIn_error (message : String) :
    Json.FitsIn Json.nestingLimit (.object [("error", .text message)]) := by
  rw [show Json.nestingLimit = 126 + 1 from rfl]
  simp [Json.FitsIn]

theorem Definition.agrees_tables (d : Definition) :
    Tables.Agrees (fun g t => g.SameLookUps t ∧ g.WellFormed ∧ g.names.Nodup) d.build d.tables := by
  unfold build tables
  cases d.startSymbol? with
  | none => exact .error _
  | some start =>
    refine (Tables.agrees_build d.rules start d.epsilon).imp fun g t accepted mirrors => ?_
    exact ⟨Grammar.sameLookUps_of_mirrors mirrors, Grammar.wellFormed_of_build accepted,
      Grammar.nodup_names_of_build accepted⟩

theorem agrees_readTables (document : String) :
    Tables.Agrees (fun g t => g.SameLookUps t ∧ g.WellFormed ∧ g.names.Nodup)
      (readGrammar document) (readTables document) := by
  unfold readGrammar readTables
  cases Definition.read document with
  | error rejection => exact .error rejection
  | ok d => exact d.agrees_tables

/-- Every document has an answer. Who reads it back gets the message of the rejection, or a report of
the sets of the grammar that was accepted. -/
theorem analyse_faithful (document : String) :
    Tables.Agrees Grammar.SameLookUps (readGrammar document) (readTables document) ∧
    ∃ text value, analyse? document = some text ∧ Json.read? text = some value ∧
      match readGrammar document with
      | .error rejection => value = .object [("error", .text rejection.message)]
      | .ok g => g.Completes ∧ g.ReportedBy value := by
  have agrees := agrees_readTables document
  refine ⟨agrees.imp fun g t _ holds => holds.1, ?_⟩
  unfold analyse?
  generalize readGrammar document = result at agrees
  generalize readTables document = tables at agrees
  cases agrees with
  | ok holds =>
    obtain ⟨-, wellFormed, distinct⟩ := holds
    obtain ⟨report, found, reported⟩ := Grammar.exists_ownReport wellFormed distinct
    refine ⟨report.json, report.toJson, ?_, Json.read?_render report.fitsIn_toJson, ?_⟩
    · simp only [found, Option.map_some]
    · exact ⟨Grammar.completes_of_wellFormed wellFormed, reported⟩
  | error rejection => exact ⟨_, _, rfl, Json.read?_render (fitsIn_error _), rfl⟩

end Lookahead
