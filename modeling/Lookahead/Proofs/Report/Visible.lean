import Lookahead.Proofs.Analysis
import Lookahead.Proofs.Report.Productions

/-!
What readers of a report may rely on. A definition with a blank name is turned down, so no name in the
reports of an accepted grammar is empty or has white space in it.
-/

namespace Lookahead

structure ProductionsRow.Visible (row : ProductionsRow) : Prop where
  left : Text.isBlank row.left = false
  productive : row.rights ≠ []
  names : ∀ right ∈ row.rights, ∀ name ∈ right, Text.isBlank name = false

structure NonTerminalRow.Visible (row : NonTerminalRow) : Prop where
  name : Text.isBlank row.name = false
  first : ∀ name ∈ row.first, Text.isBlank name = false
  follow : ∀ name ∈ row.follow, Text.isBlank name = false

structure TerminalRow.Visible (row : TerminalRow) : Prop where
  name : Text.isBlank row.name = false
  first : ∀ name ∈ row.first, Text.isBlank name = false

structure ProductionsReport.Visible (report : ProductionsReport) : Prop where
  filled : report.rows ≠ []
  rows : ∀ row ∈ report.rows, row.Visible

structure SetsReport.Visible (report : SetsReport) : Prop where
  filled : report.nonTerminals ≠ []
  nonTerminals : ∀ row ∈ report.nonTerminals, row.Visible
  terminals : ∀ row ∈ report.terminals, row.Visible

theorem exists_of_mem_right {α β : Type} {related : α → β → Prop} {l : List α} {m : List β}
    (all : List.Forall₂ related l m) {b : β} (member : b ∈ m) : ∃ a ∈ l, related a b := by
  induction all with
  | nil => simp at member
  | cons first _ ih =>
    rcases List.mem_cons.1 member with rfl | inside
    · exact ⟨_, List.mem_cons_self, first⟩
    · obtain ⟨a, listed, holds⟩ := ih inside
      exact ⟨a, List.mem_cons_of_mem _ listed, holds⟩

namespace Grammar

variable {rules : List Rule} {start epsilon : String}

theorem leftSides_ne_nil (acceptable : Acceptable rules start epsilon) : leftSides rules ≠ [] :=
  List.ne_nil_of_mem (List.mem_eraseDups.2 acceptable.start_declared)

theorem visible_productionsReport (acceptable : Acceptable rules start epsilon) :
    ProductionsReport.Visible ⟨epsilon, merged rules⟩ := by
  refine ⟨by simpa [merged] using leftSides_ne_nil acceptable, fun row listed => ?_⟩
  obtain ⟨name, declared, rfl⟩ := List.mem_map.1 listed
  refine ⟨visible_of_isSpelled acceptable (.inr (.inl declared)), ?_, ?_⟩
  · obtain ⟨rule, present, rfl⟩ := mem_leftSides.1 declared
    exact acceptable.productive rule present
  · intro right given token member
    exact visible_of_isSpelled acceptable (isSpelled_of_mem_rightsOf given member)

theorem exists_visible_productionsReport {g : Grammar} (accepted : build rules start epsilon = .ok g) :
    ∃ report, g.productionsReport? = some report ∧ report.Visible ∧ report.epsilon = g.epsilon ∧
      report.rows.map (·.left) = g.nonTerminals.map (·.name) := by
  obtain ⟨acceptable, rfl⟩ := build_eq_ok_iff.1 accepted
  refine ⟨_, productionsReport?_ofRules rules start epsilon, visible_productionsReport acceptable, rfl, ?_⟩
  rw [map_name_nonTerminals, merged, List.map_map]
  exact List.map_id _

theorem Lists.visible (acceptable : Acceptable rules start epsilon) {names : List String} {s : IndexSet}
    (lists : (ofRules rules start epsilon).Lists names s) : ∀ name ∈ names, Text.isBlank name = false := by
  intro name member
  obtain ⟨i, -, named⟩ := (lists.mem name).1 member
  exact visible_of_name? acceptable named

theorem exists_visible_ownReport {g : Grammar} (accepted : build rules start epsilon = .ok g) :
    ∃ report, g.ownReport? = some report ∧ report.Visible ∧ report.epsilon = g.epsilon := by
  have wellFormed := wellFormed_of_build accepted
  have distinct := nodup_names_of_build accepted
  obtain ⟨acceptable, rfl⟩ := build_eq_ok_iff.1 accepted
  obtain ⟨nonTerminals, terminals, found, rows, rows'⟩ := exists_setsReport wellFormed distinct
  refine ⟨_, found, ⟨?_, ?_, ?_⟩, rfl⟩
  · have declared := leftSides_ne_nil acceptable
    rw [← List.length_pos_iff] at declared ⊢
    simpa [← rows.length_eq, indexedNonTerminals, ofRules] using declared
  · intro row listed
    obtain ⟨⟨n, i⟩, member, describes⟩ := exists_of_mem_right rows listed
    have named := name?_of_symbol? (symbol?_of_nonTerminal? ((mem_indexedNonTerminals _ n i).1 member))
    obtain ⟨first, -, lists⟩ := describes.first
    obtain ⟨follow, -, lists'⟩ := describes.follow
    exact ⟨describes.name ▸ visible_of_name? acceptable named, lists.visible acceptable,
      lists'.visible acceptable⟩
  · intro row listed
    obtain ⟨⟨name, i⟩, member, describes⟩ := exists_of_mem_right rows' listed
    have named := name?_of_symbol? ((mem_indexedTerminals _ name i).1 member)
    obtain ⟨first, -, lists⟩ := describes.first
    exact ⟨describes.name ▸ visible_of_name? acceptable named, lists.visible acceptable⟩

end Grammar

end Lookahead
