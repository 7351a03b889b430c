import Lookahead.Proofs.Grammar.Spelling

/-!
What acceptance of a definition says about the grammar. Productions hold usable symbols only, so no
production has the end mark or an index beyond the last terminal, and the start symbol is a
nonterminal.
-/

namespace Lookahead.Grammar

structure WellFormed (g : Grammar) : Prop where
  start : g.isNonTerminal g.start
  usable : ∀ symbol right, g.HasProduction symbol right → ∀ i ∈ right, g.Usable i

variable {rules : List Rule} {start epsilon : String}

theorem usable_ruleIndex (acceptable : Acceptable rules start epsilon) {token : String}
    (spelled : IsSpelled rules epsilon token) :
    (ofRules rules start epsilon).Usable (ruleIndex rules epsilon token) := by
  rcases spelled with hidden | declared | terminal
  · exact .inl (if_pos hidden)
  · rw [ruleIndex_of_mem_leftSides acceptable declared]
    exact .inr (.inl (isNonTerminal_of_mem_leftSides declared))
  · exact .inr (.inr (isTerminal_ruleIndex terminal))

theorem wellFormed_ofRules (acceptable : Acceptable rules start epsilon) :
    (ofRules rules start epsilon).WellFormed := by
  refine ⟨isNonTerminal_of_mem_leftSides (List.mem_eraseDups.2 acceptable.start_declared), ?_⟩
  intro symbol right has i inside
  obtain ⟨name, -, -, tokens, listed, rfl⟩ := hasProduction_ofRules_iff.1 has
  obtain ⟨token, member, rfl⟩ := List.mem_map.1 inside
  exact usable_ruleIndex acceptable (isSpelled_of_mem_rightsOf listed member)

theorem wellFormed_of_build {g : Grammar} (accepted : build rules start epsilon = .ok g) :
    g.WellFormed := by
  obtain ⟨acceptable, rfl⟩ := build_eq_ok_iff.1 accepted
  exact wellFormed_ofRules acceptable

end Lookahead.Grammar
