import Lookahead.Proofs.Embedding
import Lookahead.Proofs.Grammar.Spelling

/-!
The choice of the start symbol. Two grammars that differ in it derive the same forms from every nonterminal,
so their FIRST sets are equal, and their FOLLOW sets differ in the end mark at most.
-/

namespace Lookahead.Grammar

/-- The grammar, where derivations of texts start elsewhere. -/
def withStart (g : Grammar) (start : Nat) : Grammar := { g with start := start }

section Sets

variable {g : Grammar} {start : Nat}

/-- No production and no kind of symbol depends on the start symbol. -/
theorem carries_withStart (g : Grammar) (start : Nat) :
    g.Carries (g.withStart start) (fun _ => True) id where
  epsilon := rfl
  shown _ _ := id
  terminal _ _ := id
  production _ right _ has := by
    rw [List.map_id]
    exact has
  closed _ _ _ _ _ _ := trivial

theorem WellFormed.withStart (wellFormed : g.WellFormed) (nonTerminal : g.isNonTerminal start) :
    (g.withStart start).WellFormed :=
  ⟨nonTerminal, wellFormed.usable⟩

theorem firstSet_subset_withStart (wellFormed : g.WellFormed) (nonTerminal : g.isNonTerminal start)
    {symbol : Nat} {first first' : IndexSet} (found : g.firstSets.get? symbol = some first)
    (found' : (g.withStart start).firstSets.get? symbol = some first') {i : Nat} (member : i ∈ first) :
    i ∈ first' :=
  (carries_withStart g start).firstSets wellFormed (wellFormed.withStart nonTerminal) trivial found found'
    member

theorem firstSets_withStart (wellFormed : g.WellFormed) (nonTerminal : g.isNonTerminal start) :
    (g.withStart start).firstSets = g.firstSets := by
  have wellFormed' := wellFormed.withStart nonTerminal
  suffices same : ∀ symbol, (g.withStart start).firstSets.get? symbol = g.firstSets.get? symbol from
    congrArg FirstSets.mk (IndexMap.ext same)
  intro symbol
  have known : ((g.withStart start).firstSets.get? symbol).isSome ↔ (g.firstSets.get? symbol).isSome :=
    (isSome_get?_firstSets wellFormed' symbol).trans (isSome_get?_firstSets wellFormed symbol).symm
  cases found : g.firstSets.get? symbol with
  | none => simpa [found] using known
  | some first =>
    obtain ⟨first', found'⟩ := Option.isSome_iff_exists.1 (known.2 (Option.isSome_of_eq_some found))
    rw [found']
    congr 1
    ext i
    constructor
    · -- the grammar is the other one with its own start symbol put back
      exact firstSet_subset_withStart wellFormed' wellFormed.start found' found
    · exact firstSet_subset_withStart wellFormed nonTerminal found found'

/-- A terminal comes after a symbol by a derivation from any nonterminal. -/
theorem ComesAfter.withStart {symbol t : Nat} (terminal : g.IsTerminal t) (comes : g.ComesAfter symbol t) :
    (g.withStart start).ComesAfter symbol t := by
  obtain ⟨origin, nonTerminal, before, after, derived⟩ := (comesAfter_terminal_iff terminal).1 comes
  obtain ⟨carried, -⟩ := (carries_withStart g start).derives (fun _ _ => trivial) derived
  rw [List.map_id, List.map_id] at carried
  exact .inl ⟨terminal, origin, nonTerminal, before, after, carried⟩

theorem followSet_subset_withStart (wellFormed : g.WellFormed) (nonTerminal : g.isNonTerminal start)
    {symbol : Nat} {follow follow' : IndexSet}
    (found : (g.followSets g.firstSets).get? symbol = some follow)
    (found' : ((g.withStart start).followSets (g.withStart start).firstSets).get? symbol = some follow')
    {i : Nat} (inner : i ≠ endMarkIndex) (member : i ∈ follow) : i ∈ follow' := by
  have terminal := (endMark_or_terminal_of_mem_followSets wellFormed found member).resolve_left inner
  have comes := (mem_followSets_iff wellFormed found i).1 member
  exact (mem_followSets_iff (wellFormed.withStart nonTerminal) found' i).2 (comes.withStart terminal)

end Sets

variable {rules : List Rule} {start other epsilon : String}

theorem Acceptable.withStart (acceptable : Acceptable rules start epsilon)
    (declared : other ∈ rules.map (·.left)) : Acceptable rules other epsilon :=
  ⟨acceptable.epsilon_visible, acceptable.epsilon_free, acceptable.left_free, acceptable.left_visible,
    acceptable.token_free, acceptable.token_visible, declared, acceptable.productive⟩

/-- Rules that are accepted with one start symbol are accepted with every other left side, and their
lookahead sets differ in the end mark at most. -/
theorem sets_eq_of_other_start {g : Grammar} (accepted : build rules start epsilon = .ok g)
    (declared : other ∈ rules.map (·.left)) :
    ∃ g', build rules other epsilon = .ok g' ∧ g'.name? g'.start = some other ∧
      g'.symbols = g.symbols ∧ (∀ i, g'.productions? i = g.productions? i) ∧
      g'.firstSets = g.firstSets ∧
      ∀ symbol, g.isNonTerminal symbol →
        ∃ follow follow', (g.followSets g.firstSets).get? symbol = some follow ∧
          (g'.followSets g'.firstSets).get? symbol = some follow' ∧
          ∀ i, i ≠ endMarkIndex → (i ∈ follow ↔ i ∈ follow') := by
  have wellFormed := wellFormed_of_build accepted
  obtain ⟨acceptable, same⟩ := build_eq_ok_iff.1 accepted
  have acceptable' := acceptable.withStart declared
  have moved : ofRules rules other epsilon = g.withStart (ofRules rules other epsilon).start := by
    rw [same]
    rfl
  have accepted' := build_of_acceptable acceptable'
  have named := name?_of_indexOf? (indexOf?_start acceptable')
  have nonTerminal : g.isNonTerminal (ofRules rules other epsilon).start := by
    rw [same]
    exact (wellFormed_ofRules acceptable').start
  generalize (ofRules rules other epsilon).start = origin at moved named nonTerminal
  rw [moved] at accepted' named
  have wellFormed' := wellFormed.withStart nonTerminal
  refine ⟨g.withStart origin, accepted', named, rfl, fun _ => rfl,
    firstSets_withStart wellFormed nonTerminal, ?_⟩
  intro symbol declared
  obtain ⟨follow, found⟩ := Option.isSome_iff_exists.1
    ((isSome_get?_followSets wellFormed.start g.firstSets symbol).2 declared)
  obtain ⟨follow', found'⟩ := Option.isSome_iff_exists.1
    ((isSome_get?_followSets wellFormed'.start (g.withStart origin).firstSets symbol).2 declared)
  refine ⟨follow, follow', found, found', fun i inner => ⟨?_, ?_⟩⟩
  · exact followSet_subset_withStart wellFormed nonTerminal found found' inner
  · exact followSet_subset_withStart wellFormed' wellFormed.start found' found inner

/-- In `S → A S a | b` and `A → ε` the end mark comes after `A` only where texts are derived from `A`. -/
theorem sets_eq_of_other_start_hidden_recursion : ∃ g',
    build [⟨"S", [["A", "S", "a"], ["b"]]⟩, ⟨"A", [["ε"]]⟩] "S" "ε" = .ok hiddenRecursion ∧
    build [⟨"S", [["A", "S", "a"], ["b"]]⟩, ⟨"A", [["ε"]]⟩] "A" "ε" = .ok g' ∧
    g'.firstSets = hiddenRecursion.firstSets ∧
    (hiddenRecursion.followSets hiddenRecursion.firstSets).get? 3 = some (.ofList [5]) ∧
    ∃ follow, (g'.followSets g'.firstSets).get? 3 = some follow ∧ endMarkIndex ∈ follow ∧
      ∀ i, i ≠ endMarkIndex → (i ∈ IndexSet.ofList [5] ↔ i ∈ follow) := by
  have accepted :
      build [⟨"S", [["A", "S", "a"], ["b"]]⟩, ⟨"A", [["ε"]]⟩] "S" "ε" = .ok hiddenRecursion := rfl
  have accepted' : build [⟨"S", [["A", "S", "a"], ["b"]]⟩, ⟨"A", [["ε"]]⟩] "A" "ε" =
      .ok (hiddenRecursion.withStart 3) := rfl
  have before : (hiddenRecursion.followSets hiddenRecursion.firstSets).get? 3 = some (.ofList [5]) := by
    decide +kernel
  have after : ((hiddenRecursion.withStart 3).followSets (hiddenRecursion.withStart 3).firstSets).get? 3 =
      some (.ofList [1, 5]) := by
    decide +kernel
  obtain ⟨g', found, -, -, -, first, sets⟩ := sets_eq_of_other_start accepted (show "A" ∈ _ by decide)
  obtain rfl := Except.ok.inj (accepted'.symm.trans found)
  obtain ⟨follow, follow', listed, listed', agree⟩ := sets 3 (by decide)
  obtain rfl := Option.some.inj (before.symm.trans listed)
  obtain rfl := Option.some.inj (after.symm.trans listed')
  exact ⟨_, accepted, accepted', first, before, _, after, by decide +kernel, agree⟩

end Lookahead.Grammar
