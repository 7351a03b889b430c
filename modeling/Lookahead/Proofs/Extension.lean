import Lookahead.Proofs.Embedding
import Lookahead.Proofs.Grammar.Spelling

/-!
Rules added at the end. As long as they declare no nonterminal, all symbols keep their indices, so the
productions and the lookahead sets of the shorter definition are kept too.
-/

namespace Lookahead.Grammar

section Layout

theorem rightsOf_append (rules extra : List Rule) (name : String) :
    rightsOf (rules ++ extra) name = rightsOf rules name ++ rightsOf extra name := by
  rw [rightsOf, List.filter_append, List.flatMap_append]
  rfl

theorem tokens_append (rules extra : List Rule) :
    tokens (rules ++ extra) = tokens rules ++ tokens extra :=
  List.flatMap_append

variable {rules extra : List Rule} {start epsilon : String}
  (declared : ∀ rule ∈ extra, rule.left ∈ rules.map (·.left))

include declared

theorem leftSides_append : leftSides (rules ++ extra) = leftSides rules := by
  have none : (extra.map (·.left)).removeAll (rules.map (·.left)) = [] := by
    rw [List.removeAll, List.filter_eq_nil_iff]
    simpa using declared
  rw [leftSides, List.map_append, List.eraseDups_append, none, List.eraseDups_nil, List.append_nil]
  rfl

theorem terminalTokens_append (epsilon : String) :
    terminalTokens rules epsilon <+: terminalTokens (rules ++ extra) epsilon := by
  rw [terminalTokens, terminalTokens, leftSides_append declared, tokens_append, List.filter_append]
  exact eraseDups_prefix _ _

theorem ruleIndex_append {token : String} (spelled : IsSpelled rules epsilon token) :
    ruleIndex (rules ++ extra) epsilon token = ruleIndex rules epsilon token := by
  obtain ⟨more, longer⟩ := terminalTokens_append declared epsilon
  simp only [ruleIndex, tokenIndex, leftSides_append declared, ← longer]
  split
  · rfl
  rename_i shown
  split
  · rfl
  rename_i undeclared
  rw [List.idxOf_append_of_mem ((spelled.resolve_left shown).resolve_left undeclared)]

theorem symbols_append (start epsilon : String) :
    (ofRules rules start epsilon).symbols <+: (ofRules (rules ++ extra) start epsilon).symbols := by
  obtain ⟨more, longer⟩ := terminalTokens_append declared epsilon
  refine ⟨more.map .terminal, ?_⟩
  simp [symbols, ofRules, leftSides_append declared, ← longer]

theorem productions?_append {i : Nat} {productions : List (List Nat)}
    (found : (ofRules rules start epsilon).productions? i = some productions) :
    ∃ more, (ofRules (rules ++ extra) start epsilon).productions? i = some more ∧
      productions <+: more := by
  have above := ((isNonTerminal_iff _ i).1 (isNonTerminal_of_productions? found)).1
  obtain ⟨i, rfl⟩ := Nat.exists_eq_add_of_le above
  rw [productions?_ofRules, Option.map_eq_some_iff] at found
  obtain ⟨name, place, rfl⟩ := found
  rw [productions?_ofRules, leftSides_append declared, place, Option.map_some]
  refine ⟨_, rfl, ?_⟩
  have kept : (rightsOf rules name).map (·.map (ruleIndex rules epsilon)) =
      (rightsOf rules name).map (·.map (ruleIndex (rules ++ extra) epsilon)) := by
    refine List.map_congr_left fun right listed => List.map_congr_left fun token member => ?_
    exact (ruleIndex_append declared (isSpelled_of_mem_rightsOf listed member)).symm
  simp only [kept, rightsOf_append, List.map_append]
  exact List.prefix_append _ _

theorem symbol?_append {i : Nat} {symbol : Symbol}
    (found : (ofRules rules start epsilon).symbol? i = some symbol) :
    (ofRules (rules ++ extra) start epsilon).symbol? i = some symbol := by
  obtain ⟨more, longer⟩ := symbols_append declared start epsilon
  rw [symbol?_eq_getElem?] at found ⊢
  obtain ⟨inside, -⟩ := List.getElem?_eq_some_iff.1 found
  rw [← longer, List.getElem?_append_left inside]
  exact found

theorem isNonTerminal_append {i : Nat} (nonTerminal : (ofRules rules start epsilon).isNonTerminal i) :
    (ofRules (rules ++ extra) start epsilon).isNonTerminal i := by
  rw [isNonTerminal_iff_symbol?] at nonTerminal ⊢
  exact nonTerminal.imp fun _ => symbol?_append declared

theorem usable_append {i : Nat} (usable : (ofRules rules start epsilon).Usable i) :
    (ofRules (rules ++ extra) start epsilon).Usable i := by
  rcases usable with hidden | nonTerminal | terminal
  · exact .inl hidden
  · exact .inr (.inl (isNonTerminal_append declared nonTerminal))
  · exact .inr (.inr (terminal.imp fun _ => symbol?_append declared))

theorem carries_append (start epsilon : String) :
    (ofRules rules start epsilon).Carries (ofRules (rules ++ extra) start epsilon)
      (fun _ => True) id where
  epsilon := rfl
  shown _ _ := id
  terminal i _ terminal := terminal.imp fun _ => symbol?_append declared
  production i right _ has := by
    obtain ⟨productions, found, member⟩ := has
    obtain ⟨more, longer, kept⟩ := productions?_append declared found
    refine ⟨more, longer, ?_⟩
    rw [List.map_id]
    exact kept.subset member
  closed _ _ _ _ _ _ := trivial

end Layout

variable {rules extra : List Rule} {start epsilon : String} {g g' : Grammar}

/-- A longer definition keeps the symbols, the productions and all members of the sets. -/
theorem sets_subset_of_append (accepted : build rules start epsilon = .ok g)
    (declared : ∀ rule ∈ extra, rule.left ∈ rules.map (·.left))
    (extended : build (rules ++ extra) start epsilon = .ok g') :
    g.symbols <+: g'.symbols ∧
    (∀ i productions, g.productions? i = some productions →
      ∃ more, g'.productions? i = some more ∧ productions <+: more) ∧
    (∀ i first, g.firstSets.get? i = some first →
      ∃ more, g'.firstSets.get? i = some more ∧ ∀ symbol ∈ first, symbol ∈ more) ∧
    ∀ i follow, (g.followSets g.firstSets).get? i = some follow →
      ∃ more, (g'.followSets g'.firstSets).get? i = some more ∧ ∀ symbol ∈ follow, symbol ∈ more := by
  have wellFormed := wellFormed_of_build accepted
  have wellFormed' := wellFormed_of_build extended
  obtain ⟨-, rfl⟩ := build_eq_ok_iff.1 accepted
  obtain ⟨-, rfl⟩ := build_eq_ok_iff.1 extended
  have carries := carries_append declared start epsilon
  have same_start :
      (ofRules rules start epsilon).start = (ofRules (rules ++ extra) start epsilon).start := by
    simp only [ofRules, leftSides_append declared]
  refine ⟨symbols_append declared start epsilon, fun i productions => productions?_append declared,
    ?_, ?_⟩
  · intro i first found
    have usable := (isSome_get?_firstSets wellFormed i).1 (Option.isSome_of_eq_some found)
    obtain ⟨more, found'⟩ := Option.isSome_iff_exists.1
      ((isSome_get?_firstSets wellFormed' i).2 (usable_append declared usable))
    exact ⟨more, found', fun symbol => carries.firstSets wellFormed wellFormed' trivial found found'⟩
  · intro i follow found
    have nonTerminal := (isSome_get?_followSets wellFormed.start _ i).1 (Option.isSome_of_eq_some found)
    obtain ⟨more, found'⟩ := Option.isSome_iff_exists.1
      ((isSome_get?_followSets wellFormed'.start _ i).2 (isNonTerminal_append declared nonTerminal))
    exact ⟨more, found', fun symbol => carries.followSets wellFormed wellFormed' (fun _ => trivial) rfl
      same_start found found'⟩

/-- To `S → A a` and `A → b` come `A → ε | S c`, so `A` gets nullable and `S` begins with itself. -/
theorem sets_subset_of_append_cycle : ∃ g g',
    build [⟨"S", [["A", "a"]]⟩, ⟨"A", [["b"]]⟩] "S" "ε" = .ok g ∧
      build ([⟨"S", [["A", "a"]]⟩, ⟨"A", [["b"]]⟩] ++ [⟨"A", [[], ["S", "c"]]⟩]) "S" "ε" = .ok g' ∧
      g.symbols <+: g'.symbols ∧ g.firstSets.get? 2 = some (.ofList [5]) ∧
      (∃ more, g'.firstSets.get? 2 = some more ∧ ∀ symbol ∈ IndexSet.ofList [5], symbol ∈ more) ∧
      ∃ more, (g'.followSets g'.firstSets).get? 2 = some more ∧
        ∀ symbol ∈ IndexSet.ofList [endMarkIndex], symbol ∈ more := by
  have accepted : build [⟨"S", [["A", "a"]]⟩, ⟨"A", [["b"]]⟩] "S" "ε" =
      .ok ⟨"ε", [⟨"S", [[3, 4]]⟩, ⟨"A", [[5]]⟩], ["a", "b"], 2⟩ := rfl
  have extended : build ([⟨"S", [["A", "a"]]⟩, ⟨"A", [["b"]]⟩] ++ [⟨"A", [[], ["S", "c"]]⟩]) "S" "ε" =
      .ok ⟨"ε", [⟨"S", [[3, 4]]⟩, ⟨"A", [[5], [], [2, 6]]⟩], ["a", "b", "c"], 2⟩ := rfl
  obtain ⟨symbols, -, first, follow⟩ := sets_subset_of_append accepted (by decide) extended
  exact ⟨_, _, accepted, extended, symbols, by decide +kernel, first 2 (.ofList [5]) (by decide +kernel),
    follow 2 (.ofList [endMarkIndex]) (by decide +kernel)⟩

end Lookahead.Grammar
