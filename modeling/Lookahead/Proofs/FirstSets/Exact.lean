import Lookahead.Proofs.FirstSets.Refinement

/-!
FIRST sets against derivations, for sequences of any indices and for single symbols, whatever shape
the recursion of the grammar has.
-/

namespace Lookahead

namespace FirstSets

theorem ofSequence_singleton (first : FirstSets) (symbol : Nat) :
    first.ofSequence [symbol] = first.get symbol := by
  ext i
  exact mem_ofSequence_singleton

theorem eq_ofSequence_of_get? {first : FirstSets} {symbol : Nat} {set : IndexSet}
    (found : first.get? symbol = some set) : set = first.ofSequence [symbol] := by
  rw [ofSequence_singleton, get, found, Option.getD_some]

theorem isNullable_iff (first : FirstSets) (symbol : Nat) :
    first.isNullable symbol ↔ epsilonIndex ∈ first.ofSequence [symbol] := by
  rw [ofSequence_singleton, isNullable, decide_eq_true_eq]

end FirstSets

namespace Grammar

variable {g : Grammar}

theorem isSome_symbol?_iff (g : Grammar) (i : Nat) : (g.symbol? i).isSome ↔ i < g.size := by
  rw [symbol?_eq_getElem?, isSome_getElem?, length_symbols]

theorem Vanishes.isSome_symbol? {symbol : Nat} (vanishes : g.Vanishes [symbol]) :
    (g.symbol? symbol).isSome := by
  apply (isSome_symbol?_iff g symbol).2
  apply Usable.lt_size
  by_contra unusable
  have shown : symbol ≠ epsilonIndex := fun hidden => unusable (.inl hidden)
  have other : ¬ g.isNonTerminal symbol := fun nonTerminal => unusable (.inr (.inl nonTerminal))
  have same := ((leads_of_not_isNonTerminal other shown).1 (leads_epsilon.2 vanishes)).1
  exact shown same.symm

theorem mem_ofSequence_firstSets (wellFormed : g.WellFormed) (sequence : List Nat) (i : Nat) :
    i ∈ g.firstSets.ofSequence sequence ↔ g.Leads sequence i := by
  obtain ⟨ready, closed⟩ := settled_evaluate wellFormed
  constructor
  · intro member
    exact FirstSets.leads_of_mem_ofSequence ready.leads_of_mem member
  · intro leads
    exact closed.mem_of_leads leads

theorem isSome_get?_firstSets (wellFormed : g.WellFormed) (symbol : Nat) :
    (g.firstSets.get? symbol).isSome ↔ g.Usable symbol := by
  have ready := (settled_evaluate wellFormed).1
  constructor
  · intro known
    obtain ⟨first, found⟩ := Option.isSome_iff_exists.1 known
    exact (ready.known symbol first found).1
  · intro usable
    exact ready.cached symbol usable

theorem usable_of_mem_firstSets (wellFormed : g.WellFormed) {symbol : Nat} {first : IndexSet}
    (found : g.firstSets.get? symbol = some first) {i : Nat} (member : i ∈ first) : g.Usable i := by
  rw [FirstSets.eq_ofSequence_of_get? found, mem_ofSequence_firstSets wellFormed] at member
  exact member.epsilon_or_terminal.imp_right .inr

theorem lt_size_of_mem_firstSets (wellFormed : g.WellFormed) {symbol : Nat} {first : IndexSet}
    (found : g.firstSets.get? symbol = some first) {i : Nat} (member : i ∈ first) : i < g.size :=
  (usable_of_mem_firstSets wellFormed found member).lt_size

/-- A symbol that no rule rewrites is all that its FIRST set holds. -/
theorem get?_firstSets_of_leaf (wellFormed : g.WellFormed) {i : Nat} (usable : g.Usable i)
    (other : ¬ g.isNonTerminal i) : g.firstSets.get? i = some {i} := by
  obtain ⟨first, found⟩ := Option.isSome_iff_exists.1 ((isSome_get?_firstSets wellFormed i).2 usable)
  have same : first = {i} := by
    ext j
    rw [FirstSets.eq_ofSequence_of_get? found, mem_ofSequence_firstSets wellFormed,
      leads_of_leaf usable other, IndexSet.mem_singleton]
  rw [found, same]

/-- FIRST is exact for accepted grammars. Derivation is over forms without epsilon. -/
theorem firstSets_exact {rules : List Rule} {start epsilon : String} {g : Grammar}
    (accepted : build rules start epsilon = .ok g) :
    (∀ sequence : List Nat,
      (∀ t, g.IsTerminal t → (t ∈ g.firstSets.ofSequence sequence ↔
        ∃ rest, g.Derives (visible sequence) (t :: rest))) ∧
      (epsilonIndex ∈ g.firstSets.ofSequence sequence ↔ g.Derives (visible sequence) []) ∧
      ∀ i ∈ g.firstSets.ofSequence sequence, i = epsilonIndex ∨ g.IsTerminal i) ∧
    ∀ symbol : Nat,
      ((g.firstSets.get? symbol).isSome ↔
        symbol = epsilonIndex ∨ g.isNonTerminal symbol ∨ g.IsTerminal symbol) ∧
      (∀ set, g.firstSets.get? symbol = some set → set = g.firstSets.ofSequence [symbol]) ∧
      (g.firstSets.isNullable symbol ↔
        (g.symbol? symbol).isSome ∧ g.Derives (visible [symbol]) []) := by
  have wellFormed := wellFormed_of_build accepted
  refine ⟨?_, ?_⟩
  · intro sequence
    refine ⟨?_, ?_, ?_⟩
    · intro t terminal
      rw [mem_ofSequence_firstSets wellFormed]
      exact leads_terminal_iff terminal
    · rw [mem_ofSequence_firstSets wellFormed]
      exact leads_epsilon
    · intro i member
      exact ((mem_ofSequence_firstSets wellFormed sequence i).1 member).epsilon_or_terminal
  · intro symbol
    refine ⟨isSome_get?_firstSets wellFormed symbol, ?_, ?_⟩
    · intro set found
      exact FirstSets.eq_ofSequence_of_get? found
    · rw [FirstSets.isNullable_iff, mem_ofSequence_firstSets wellFormed, leads_epsilon]
      constructor
      · intro vanishes
        exact ⟨vanishes.isSome_symbol?, vanishes⟩
      · exact And.right

/-- In `S → A S a | b` and `A → ε`, where `A` hides the recursion of `S`, texts derived from `S` begin
with `b` and never with `a`. -/
theorem firstSets_exact_hidden_recursion :
    build [⟨"S", [["A", "S", "a"], ["b"]]⟩, ⟨"A", [["ε"]]⟩] "S" "ε" = .ok hiddenRecursion ∧
      (∃ rest, hiddenRecursion.Derives [2] (5 :: rest)) ∧
      ¬ (∃ rest, hiddenRecursion.Derives [2] (4 :: rest)) ∧
      hiddenRecursion.Derives [3] [] := by
  have accepted :
      build [⟨"S", [["A", "S", "a"], ["b"]]⟩, ⟨"A", [["ε"]]⟩] "S" "ε" = .ok hiddenRecursion := rfl
  obtain ⟨sequences, symbols⟩ := firstSets_exact accepted
  refine ⟨accepted, ?_, ?_, ?_⟩
  · exact ((sequences [2]).1 5 ⟨"b", rfl⟩).1 (by decide +kernel)
  · intro begins
    exact absurd (((sequences [2]).1 4 ⟨"a", rfl⟩).2 begins) (by decide +kernel)
  · exact ((symbols 3).2.2.1 (by decide +kernel)).2

end Grammar

end Lookahead
