import Lookahead.Proofs.Grammar.Accepted
import Lookahead.Proofs.Grammar.Tables

/-!
The arena of an accepted grammar: its symbols in the order of their indices, and names that determine
indices. The tables of a build hold the same symbols, names and nonterminals.
-/

namespace Lookahead.Grammar

/-- Left sides in the order of their first rules, then the other tokens in the order of the scan. -/
def arena (rules : List Rule) (epsilon : String) : List Symbol :=
  let lefts := rules.map (·.left)
  let tokens := rules.flatMap fun rule => rule.rights.flatten
  .epsilon :: .endMark :: (lefts.eraseDups.map .nonTerminal ++
    (tokens.filter fun token => token ≠ epsilon ∧ token ∉ lefts).eraseDups.map .terminal)

/-- Look-ups by index and by name agree with the arena and with each other. -/
structure OrderedBy (g : Grammar) (arena : List Symbol) : Prop where
  symbols : g.symbols = arena
  size : g.size = arena.length
  symbol? : ∀ i, g.symbol? i = arena[i]?
  distinct : (arena.map (Symbol.name g.epsilon)).Nodup
  indexOf?_of_lt : ∀ i < g.size, ∃ name, g.name? i = some name ∧ g.indexOf? name = some i
  name?_of_indexOf? : ∀ name i, g.indexOf? name = some i → g.name? i = some name
  namesOf? : ∀ s : IndexSet, (∀ i ∈ s, i < g.size) →
    ∃ names, g.namesOf? s = some names ∧ names.Nodup ∧ names.length = s.size

/-- Nonterminals are found at their own indices only, and productions stay inside the arena. -/
structure Filled (g : Grammar) : Prop where
  isNonTerminal : ∀ i, g.isNonTerminal i ↔ ∃ name, g.symbol? i = some (.nonTerminal name)
  nonTerminal? : ∀ i, (g.nonTerminal? i).isSome ↔ ∃ name, g.symbol? i = some (.nonTerminal name)
  productions? : ∀ i, (g.productions? i).isSome ↔ ∃ name, g.symbol? i = some (.nonTerminal name)
  start : g.isNonTerminal g.start
  productive : ∀ i productions, g.productions? i = some productions → productions ≠ []
  inside : ∀ i right, g.HasProduction i right → ∀ symbol ∈ right, symbol < g.size ∧ symbol ≠ endMarkIndex
  occurs : ∀ i, g.IsTerminal i → ∃ left right, g.HasProduction left right ∧ i ∈ right

/-- A nonterminal that is found in the tables also has the index under which it is found. -/
structure SameLookUps (g : Grammar) (t : Tables) : Prop where
  symbols : t.symbols = g.symbols
  start : t.start = g.start
  name? : ∀ i, t.name? i = g.name? i
  indexOf? : ∀ name, t.indexOf? name = g.indexOf? name
  isNonTerminal : ∀ i, t.isNonTerminal i = g.isNonTerminal i
  nonTerminal? : ∀ i, t.nonTerminal? i = (g.nonTerminal? i).map fun n => (n, i)

variable {rules : List Rule} {start epsilon : String} {g : Grammar}

theorem sameLookUps_of_mirrors {t : Tables} (mirrors : t.Mirrors g) : g.SameLookUps t :=
  ⟨mirrors.symbols, mirrors.start, mirrors.name?, mirrors.indices, mirrors.isNonTerminal,
    mirrors.nonTerminal?⟩

theorem sameLookUps_of_build (accepted : build rules start epsilon = .ok g) :
    ∃ t, Tables.build rules start epsilon = .ok t ∧ g.SameLookUps t := by
  have agrees := Tables.agrees_build rules start epsilon
  rw [accepted] at agrees
  generalize Tables.build rules start epsilon = result at agrees ⊢
  cases agrees with
  | ok mirrors => exact ⟨_, rfl, sameLookUps_of_mirrors mirrors⟩

theorem symbols_ofRules (rules : List Rule) (start epsilon : String) :
    (ofRules rules start epsilon).symbols = arena rules epsilon := by
  have terminals : (tokens rules).filter (isTerminalToken epsilon (leftSides rules)) =
      (rules.flatMap fun rule => rule.rights.flatten).filter
        fun token => token ≠ epsilon ∧ token ∉ rules.map (·.left) := by
    rw [tokens]
    congr 1
    funext token
    simp only [isTerminalToken, leftSides, List.mem_eraseDups]
  simp only [symbols, ofRules, arena, terminalTokens, terminals, List.map_map]
  rfl

theorem orderedBy_of_build (accepted : build rules start epsilon = .ok g) :
    g.OrderedBy (arena rules epsilon) := by
  have distinct := nodup_names_of_build accepted
  obtain ⟨-, rfl⟩ := build_eq_ok_iff.1 accepted
  have symbols := symbols_ofRules rules start epsilon
  refine ⟨symbols, ?_, ?_, ?_, ?_, fun _ _ => name?_of_indexOf?, ?_⟩
  · rw [← symbols, length_symbols]
  · intro i
    rw [← symbols, symbol?_eq_getElem?]
  · rw [← symbols]
    exact distinct
  · intro i inside
    have named := name?_eq_nameOf inside
    exact ⟨_, named, (indexOf?_eq_some_iff distinct).2 named⟩
  · intro s inside
    obtain ⟨names, found, lists⟩ := exists_namesOf? distinct inside
    exact ⟨names, found, lists.nodup, lists.length⟩

theorem exists_production_of_terminal (distinct : (ofRules rules start epsilon).names.Nodup) {i : Nat}
    (terminal : (ofRules rules start epsilon).IsTerminal i) :
    ∃ left right, (ofRules rules start epsilon).HasProduction left right ∧ i ∈ right := by
  obtain ⟨name, symbol⟩ := terminal
  have listed := mem_terminalTokens_of_symbol? symbol
  obtain ⟨rule, member, right, given, present⟩ := mem_tokens.1 (mem_terminalTokens.1 listed).1
  have same : i = ruleIndex rules epsilon name :=
    eq_of_name? distinct (name?_of_symbol? symbol) (name?_ruleIndex (.inr (.inr listed)))
  refine ⟨_, right.map (ruleIndex rules epsilon), hasProduction_ofRules_iff.2 ⟨rule.left,
    mem_leftSides.2 ⟨rule, member, rfl⟩, rfl, right, mem_rightsOf.2 ⟨rule, member, rfl, given⟩, rfl⟩, ?_⟩
  rw [same]
  exact List.mem_map_of_mem present

theorem productions?_ne_nil {i : Nat} {productions : List (List Nat)}
    (acceptable : Acceptable rules start epsilon)
    (found : (ofRules rules start epsilon).productions? i = some productions) : productions ≠ [] := by
  obtain ⟨n, entry, rfl⟩ := Option.map_eq_some_iff.1 found
  obtain ⟨name, declared, rfl⟩ := exists_of_nonTerminal? entry
  obtain ⟨rule, listed, rfl⟩ := mem_leftSides.1 declared
  simpa using acceptable.productive rule listed

theorem filled_of_build (accepted : build rules start epsilon = .ok g) : g.Filled := by
  have wellFormed := wellFormed_of_build accepted
  have distinct := nodup_names_of_build accepted
  obtain ⟨acceptable, rfl⟩ := build_eq_ok_iff.1 accepted
  refine ⟨isNonTerminal_iff_symbol? _, isNonTerminal_iff_symbol? _, ?_, wellFormed.start,
    fun i productions => productions?_ne_nil acceptable, ?_,
    fun i => exists_production_of_terminal distinct⟩
  · intro i
    rw [Grammar.productions?, Option.isSome_map]
    exact isNonTerminal_iff_symbol? _ i
  · intro i right has symbol member
    have usable := wellFormed.usable i right has symbol member
    exact ⟨usable.lt_size, usable.ne_endMark⟩

/-- The numbering of symbols is a bijection with the names, and all that is kept beside it agrees. -/
theorem arena_bijective (accepted : build rules start epsilon = .ok g) :
    g.OrderedBy (arena rules epsilon) ∧ g.Filled ∧ g.indexOf? start = some g.start ∧
      ∃ t, Tables.build rules start epsilon = .ok t ∧ g.SameLookUps t := by
  refine ⟨orderedBy_of_build accepted, filled_of_build accepted, ?_, sameLookUps_of_build accepted⟩
  obtain ⟨acceptable, rfl⟩ := build_eq_ok_iff.1 accepted
  exact indexOf?_start acceptable

/-- `S → A b eps | b B | a A`, `A → eps | ` and `B → b S` from `A` on, where the rules of `S` are not
next to each other and `eps` stands for the empty text. -/
def scattered : Grammar where
  epsilon := "eps"
  nonTerminals := [⟨"S", [[3, 5, 0], [5, 4], [6, 3]]⟩, ⟨"A", [[0], []]⟩, ⟨"B", [[5, 2]]⟩]
  terminals := ["b", "a"]
  start := 3

theorem arena_bijective_scattered :
    build [⟨"S", [["A", "b", "eps"], ["b", "B"]]⟩, ⟨"A", [["eps"], []]⟩, ⟨"S", [["a", "A"]]⟩,
        ⟨"B", [["b", "S"]]⟩] "A" "eps" = .ok scattered ∧
      scattered.symbols = [.epsilon, .endMark, .nonTerminal "S", .nonTerminal "A", .nonTerminal "B",
        .terminal "b", .terminal "a"] ∧
      (∃ name, scattered.name? 4 = some name ∧ scattered.indexOf? name = some 4) ∧
      (∃ names, scattered.namesOf? (.ofList [6, 0, 1]) = some names ∧ names.Nodup ∧ names.length = 3) ∧
      scattered.isNonTerminal 3 ∧ scattered.indexOf? "A" = some 3 := by
  have accepted : build [⟨"S", [["A", "b", "eps"], ["b", "B"]]⟩, ⟨"A", [["eps"], []]⟩,
      ⟨"S", [["a", "A"]]⟩, ⟨"B", [["b", "S"]]⟩] "A" "eps" = .ok scattered := rfl
  obtain ⟨ordered, filled, start, -⟩ := arena_bijective accepted
  exact ⟨accepted, ordered.symbols.trans (by decide +kernel), ordered.indexOf?_of_lt 4 (by decide),
    ordered.namesOf? (.ofList [6, 0, 1]) (by decide +kernel), filled.start, start⟩

end Lookahead.Grammar
