import Lookahead.Proofs.Grammar.Spelling
import Lookahead.Proofs.Skeleton

/-!
Epsilon as a token of productions. It says nothing there: without it the definition is accepted as before,
the symbols keep their indices, and the computation runs in step, event by event.
-/

namespace Lookahead

def Rule.without (token : String) (rule : Rule) : Rule :=
  { rule with rights := rule.rights.map fun right => right.filter (· != token) }

namespace Grammar

variable {rules : List Rule} {start epsilon : String}

section Layout

theorem leftSides_without (rules : List Rule) (epsilon : String) :
    leftSides (rules.map (Rule.without epsilon)) = leftSides rules := by
  rw [leftSides, List.map_map]
  rfl

theorem rightsOf_without (rules : List Rule) (epsilon name : String) :
    rightsOf (rules.map (Rule.without epsilon)) name =
      (rightsOf rules name).map fun right => right.filter (· != epsilon) := by
  rw [rightsOf, rightsOf, List.filter_map, List.flatMap_map, List.map_flatMap]
  rfl

theorem tokens_without (rules : List Rule) (epsilon : String) :
    tokens (rules.map (Rule.without epsilon)) = (tokens rules).filter (· != epsilon) := by
  rw [tokens, tokens, List.flatMap_map, List.filter_flatMap]
  simp only [Rule.without, List.filter_flatten]

theorem terminalTokens_without (rules : List Rule) (epsilon : String) :
    terminalTokens (rules.map (Rule.without epsilon)) epsilon = terminalTokens rules epsilon := by
  rw [terminalTokens, terminalTokens, leftSides_without, tokens_without, List.filter_filter]
  congr 2
  funext token
  by_cases hidden : token = epsilon <;> simp [isTerminalToken, hidden]

theorem ruleIndex_without (rules : List Rule) (epsilon : String) :
    ruleIndex (rules.map (Rule.without epsilon)) epsilon = ruleIndex rules epsilon := by
  rw [ruleIndex, ruleIndex, leftSides_without, terminalTokens_without]

theorem ruleIndex_eq_epsilonIndex_iff {token : String} :
    ruleIndex rules epsilon token = epsilonIndex ↔ token = epsilon := by
  unfold ruleIndex tokenIndex markerCount epsilonIndex
  split
  · simp [*]
  · split <;> simp [*]

theorem visible_map_ruleIndex (right : List String) :
    visible (right.map (ruleIndex rules epsilon)) =
      (right.filter (· != epsilon)).map (ruleIndex rules epsilon) := by
  rw [visible, List.filter_map]
  congr 2
  funext token
  rw [Function.comp_apply, Bool.eq_iff_iff, bne_iff_ne, bne_iff_ne, ne_eq, ruleIndex_eq_epsilonIndex_iff]

theorem skeleton_without (rules : List Rule) (start epsilon : String) :
    (ofRules (rules.map (Rule.without epsilon)) start epsilon).skeleton =
      (ofRules rules start epsilon).skeleton := by
  have bodies (name : String) :
      (rightsOf (rules.map (Rule.without epsilon)) name).map
          (fun right => visible (right.map (ruleIndex rules epsilon))) =
        (rightsOf rules name).map fun right => visible (right.map (ruleIndex rules epsilon)) := by
    rw [rightsOf_without, List.map_map]
    refine List.map_congr_left fun right _ => ?_
    rw [Function.comp_apply, visible_map_ruleIndex, visible_map_ruleIndex, List.filter_filter]
    simp only [Bool.and_self]
  simp only [skeleton, ofRules, List.map_map, Function.comp_def, leftSides_without, ruleIndex_without,
    terminalTokens_without, bodies]

end Layout

theorem acceptable_without (acceptable : Acceptable rules start epsilon) :
    Acceptable (rules.map (Rule.without epsilon)) start epsilon where
  epsilon_visible := acceptable.epsilon_visible
  epsilon_free := acceptable.epsilon_free
  left_free := List.forall_mem_map.2 acceptable.left_free
  left_visible := List.forall_mem_map.2 acceptable.left_visible
  token_free token member := by
    rw [tokens_without] at member
    exact acceptable.token_free token (List.mem_of_mem_filter member)
  token_visible token member := by
    rw [tokens_without] at member
    exact acceptable.token_visible token (List.mem_of_mem_filter member)
  start_declared := by
    rw [List.map_map]
    exact acceptable.start_declared
  productive := List.forall_mem_map.2 fun rule listed => by
    rw [rightsOf_without, ne_eq, List.map_eq_nil_iff]
    exact acceptable.productive rule listed

/-- Deleting the token for the empty text from productions changes neither symbols nor sets nor events. -/
theorem run_eq_of_without {g : Grammar} (accepted : build rules start epsilon = .ok g) :
    ∃ g', build (rules.map (Rule.without epsilon)) start epsilon = .ok g' ∧
      g'.symbols = g.symbols ∧ g'.start = g.start ∧ g'.firstSets = g.firstSets ∧
      g'.followSets g'.firstSets = g.followSets g.firstSets ∧
      g'.log.map (·.line g') = g.log.map (·.line g) := by
  obtain ⟨acceptable, rfl⟩ := build_eq_ok_iff.1 accepted
  have same := skeleton_without rules start epsilon
  have symbols : (ofRules (rules.map (Rule.without epsilon)) start epsilon).symbols =
      (ofRules rules start epsilon).symbols := by
    simp [Grammar.symbols, ofRules, leftSides_without, terminalTokens_without, Function.comp_def]
  have names : (ofRules (rules.map (Rule.without epsilon)) start epsilon).nameOf =
      (ofRules rules start epsilon).nameOf := by
    funext i
    rw [nameOf, nameOf, name?, name?, symbol?_eq_getElem?, symbol?_eq_getElem?, symbols]
    rfl
  refine ⟨_, build_of_acceptable (acceptable_without acceptable), symbols, congrArg (·.start) same,
    firstSets_of_skeleton same, followSets_of_skeleton same, ?_⟩
  rw [log_of_skeleton same]
  refine List.map_congr_left fun event _ => ?_
  rw [Event.line, Event.line, names]

/-- `S → ε A ε S a | b` and `A → ε`, where recursion to the left is hidden behind epsilon twice. What
remains is `S → A S a | b` and `A →`. -/
theorem run_eq_of_without_hidden_recursion : ∃ g g',
    build [⟨"S", [["ε", "A", "ε", "S", "a"], ["b"]]⟩, ⟨"A", [["ε"]]⟩] "S" "ε" = .ok g ∧
    build [⟨"S", [["A", "S", "a"], ["b"]]⟩, ⟨"A", [[]]⟩] "S" "ε" = .ok g' ∧
    g'.symbols = g.symbols ∧ g'.nonTerminals ≠ g.nonTerminals ∧
    g'.firstSets = g.firstSets ∧ g'.followSets g'.firstSets = g.followSets g.firstSets ∧
    .reentered 2 ∈ g.log ∧ g'.log.map (·.line g') = g.log.map (·.line g) := by
  have accepted : build [⟨"S", [["ε", "A", "ε", "S", "a"], ["b"]]⟩, ⟨"A", [["ε"]]⟩] "S" "ε" =
      .ok ⟨"ε", [⟨"S", [[0, 3, 0, 2, 4], [5]]⟩, ⟨"A", [[0]]⟩], ["a", "b"], 2⟩ := rfl
  have accepted' : build [⟨"S", [["A", "S", "a"], ["b"]]⟩, ⟨"A", [[]]⟩] "S" "ε" =
      .ok ⟨"ε", [⟨"S", [[3, 2, 4], [5]]⟩, ⟨"A", [[]]⟩], ["a", "b"], 2⟩ := rfl
  obtain ⟨g', found, symbols, -, first, follow, log⟩ := run_eq_of_without accepted
  obtain rfl := Except.ok.inj (accepted'.symm.trans found)
  exact ⟨_, _, accepted, accepted', symbols, by decide, first, follow, by decide +kernel, log⟩

end Grammar

end Lookahead
