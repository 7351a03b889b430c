import Lookahead.Proofs.Grammar.Names

/-!
Accepted grammars as they are spelled: their productions are the right sides of the rules, where each
token stands for the symbol of its name.
-/

namespace Lookahead.Grammar

variable {rules : List Rule} {start epsilon : String}

/-- The tokens that a grammar of the rules has symbols for. -/
def IsSpelled (rules : List Rule) (epsilon token : String) : Prop :=
  token = epsilon ∨ token ∈ leftSides rules ∨ token ∈ terminalTokens rules epsilon

theorem isSpelled_of_mem_tokens {token : String} (member : token ∈ tokens rules) :
    IsSpelled rules epsilon token := by
  by_cases hidden : token = epsilon
  · exact .inl hidden
  by_cases declared : token ∈ leftSides rules
  · exact .inr (.inl declared)
  · exact .inr (.inr (mem_terminalTokens.2 ⟨member, hidden, declared⟩))

theorem isSpelled_of_mem_rightsOf {name token : String} {right : List String}
    (listed : right ∈ rightsOf rules name) (member : token ∈ right) : IsSpelled rules epsilon token := by
  obtain ⟨rule, present, -, given⟩ := mem_rightsOf.1 listed
  exact isSpelled_of_mem_tokens (mem_tokens.2 ⟨rule, present, right, given, member⟩)

theorem visible_of_isSpelled (acceptable : Acceptable rules start epsilon) {name : String}
    (spelled : IsSpelled rules epsilon name) : Text.isBlank name = false := by
  rcases spelled with rfl | declared | terminal
  · exact acceptable.epsilon_visible
  · obtain ⟨rule, listed, rfl⟩ := mem_leftSides.1 declared
    exact acceptable.left_visible rule listed
  · exact acceptable.token_visible name (mem_terminalTokens.1 terminal).1

theorem visible_of_name? (acceptable : Acceptable rules start epsilon) {i : Nat} {name : String}
    (named : (ofRules rules start epsilon).name? i = some name) : Text.isBlank name = false := by
  rw [name?_eq_getElem?, names_ofRules] at named
  rcases List.mem_cons.1 (List.mem_of_getElem? named) with hidden | other
  · exact visible_of_isSpelled acceptable (.inl hidden)
  rcases List.mem_cons.1 other with rfl | inside
  · rfl
  · exact visible_of_isSpelled acceptable (.inr (List.mem_append.1 inside))

theorem name?_add_markerCount (g : Grammar) (i : Nat) :
    g.name? (markerCount + i) = (g.nonTerminals.map (·.name) ++ g.terminals)[i]? := by
  rw [name?_eq_getElem?, names_eq, markerCount, Nat.add_comm]
  rfl

theorem map_name_nonTerminals (rules : List Rule) (start epsilon : String) :
    (ofRules rules start epsilon).nonTerminals.map (·.name) = leftSides rules := by
  simp [ofRules, Function.comp_def]

theorem name?_ruleIndex {token : String} (spelled : IsSpelled rules epsilon token) :
    (ofRules rules start epsilon).name? (ruleIndex rules epsilon token) = some token := by
  have lefts := map_name_nonTerminals rules start epsilon
  rw [ruleIndex, tokenIndex]
  split
  · rename_i hidden
    rw [hidden]
    rfl
  rename_i shown
  split
  · rename_i declared
    rw [name?_add_markerCount, lefts, List.getElem?_append_left (List.idxOf_lt_length_of_mem declared)]
    exact List.getElem?_idxOf declared
  · rename_i undeclared
    have terminal := (spelled.resolve_left shown).resolve_left undeclared
    rw [Nat.add_assoc, name?_add_markerCount, lefts,
      List.getElem?_append_right (Nat.le_add_right _ _), Nat.add_sub_cancel_left]
    exact List.getElem?_idxOf terminal

theorem ruleIndex_of_mem_leftSides (acceptable : Acceptable rules start epsilon) {name : String}
    (declared : name ∈ leftSides rules) :
    ruleIndex rules epsilon name = markerCount + (leftSides rules).idxOf name := by
  obtain ⟨rule, listed, rfl⟩ := mem_leftSides.1 declared
  rw [ruleIndex, tokenIndex, if_neg (acceptable.left_free rule listed).1, if_pos declared]

theorem indexOf?_ruleIndex (acceptable : Acceptable rules start epsilon) {token : String}
    (spelled : IsSpelled rules epsilon token) :
    (ofRules rules start epsilon).indexOf? token = some (ruleIndex rules epsilon token) :=
  (indexOf?_eq_some_iff (nodup_names_ofRules acceptable)).2 (name?_ruleIndex spelled)

theorem indexOf?_of_mem_leftSides (acceptable : Acceptable rules start epsilon) {name : String}
    (declared : name ∈ leftSides rules) :
    (ofRules rules start epsilon).indexOf? name = some (markerCount + (leftSides rules).idxOf name) := by
  rw [indexOf?_ruleIndex acceptable (.inr (.inl declared)),
    ruleIndex_of_mem_leftSides acceptable declared]

theorem indexOf?_start (acceptable : Acceptable rules start epsilon) :
    (ofRules rules start epsilon).indexOf? start = some (ofRules rules start epsilon).start :=
  indexOf?_of_mem_leftSides acceptable (List.mem_eraseDups.2 acceptable.start_declared)

theorem isNonTerminal_of_mem_leftSides {name : String} (declared : name ∈ leftSides rules) :
    (ofRules rules start epsilon).isNonTerminal (markerCount + (leftSides rules).idxOf name) := by
  have inside := List.idxOf_lt_length_of_mem declared
  rw [isNonTerminal_iff, ofRules, List.length_map]
  omega

theorem mem_terminalTokens_of_symbol? {name : String} {i : Nat}
    (symbol : (ofRules rules start epsilon).symbol? i = some (.terminal name)) :
    name ∈ terminalTokens rules epsilon :=
  List.fst_mem_of_mem_zipIdx ((mem_indexedTerminals _ name i).2 symbol)

theorem isTerminal_ruleIndex {name : String} (terminal : name ∈ terminalTokens rules epsilon) :
    (ofRules rules start epsilon).IsTerminal (ruleIndex rules epsilon name) := by
  obtain ⟨-, shown, undeclared⟩ := mem_terminalTokens.1 terminal
  have inside := List.idxOf_lt_length_of_mem terminal
  rw [isTerminal_iff, size, ruleIndex, tokenIndex, if_neg shown, if_neg undeclared]
  simp only [ofRules, List.length_map]
  omega

theorem productions?_ofRules (rules : List Rule) (start epsilon : String) (i : Nat) :
    (ofRules rules start epsilon).productions? (markerCount + i) =
      (leftSides rules)[i]?.map fun name =>
        (rightsOf rules name).map (·.map (ruleIndex rules epsilon)) := by
  rw [productions?, nonTerminal?, if_neg (by omega), Nat.add_sub_cancel_left, ofRules, List.getElem?_map,
    Option.map_map]
  rfl

theorem exists_of_nonTerminal? {i : Nat} {n : NonTerminal}
    (found : (ofRules rules start epsilon).nonTerminal? i = some n) : ∃ name ∈ leftSides rules,
      n = ⟨name, (rightsOf rules name).map (·.map (ruleIndex rules epsilon))⟩ := by
  have member := List.fst_mem_of_mem_zipIdx ((mem_indexedNonTerminals _ n i).2 found)
  obtain ⟨name, declared, rfl⟩ := List.mem_map.1 member
  exact ⟨name, declared, rfl⟩

theorem mem_leftSides_of_isNonTerminal {i : Nat} {name : String}
    (nonTerminal : (ofRules rules start epsilon).isNonTerminal i)
    (named : (ofRules rules start epsilon).name? i = some name) : name ∈ leftSides rules := by
  obtain ⟨n, found⟩ := Option.isSome_iff_exists.1 nonTerminal
  obtain ⟨other, declared, rfl⟩ := exists_of_nonTerminal? found
  have same := named.symm.trans (name?_of_symbol? (symbol?_of_nonTerminal? found))
  exact Option.some.inj same ▸ declared

theorem isSpelled_of_usable {i : Nat} {name : String} (usable : (ofRules rules start epsilon).Usable i)
    (named : (ofRules rules start epsilon).name? i = some name) : IsSpelled rules epsilon name := by
  rcases usable with rfl | nonTerminal | terminal
  · exact .inl (Option.some.inj named).symm
  · exact .inr (.inl (mem_leftSides_of_isNonTerminal nonTerminal named))
  · obtain ⟨other, symbol⟩ := terminal
    have same := named.symm.trans (name?_of_symbol? symbol)
    exact .inr (.inr (Option.some.inj same ▸ mem_terminalTokens_of_symbol? symbol))

theorem hasProduction_ofRules_iff {symbol : Nat} {right : List Nat} :
    (ofRules rules start epsilon).HasProduction symbol right ↔ ∃ name ∈ leftSides rules,
      symbol = markerCount + (leftSides rules).idxOf name ∧
      ∃ tokens ∈ rightsOf rules name, right = tokens.map (ruleIndex rules epsilon) := by
  constructor
  · intro has
    obtain ⟨i, rfl⟩ := Nat.exists_eq_add_of_le ((isNonTerminal_iff _ _).1 has.isNonTerminal).1
    obtain ⟨productions, found, member⟩ := has
    rw [productions?_ofRules, Option.map_eq_some_iff] at found
    obtain ⟨name, place, rfl⟩ := found
    obtain ⟨inside, rfl⟩ := List.getElem?_eq_some_iff.1 place
    obtain ⟨tokens, listed, rfl⟩ := List.mem_map.1 member
    refine ⟨_, List.getElem_mem inside, ?_, tokens, listed, rfl⟩
    rw [(nodup_leftSides rules).idxOf_getElem i inside]
  · intro given
    obtain ⟨name, declared, rfl, tokens, listed, rfl⟩ := given
    refine ⟨_, ?_, List.mem_map_of_mem listed⟩
    rw [productions?_ofRules, List.getElem?_idxOf declared]
    rfl

end Lookahead.Grammar
