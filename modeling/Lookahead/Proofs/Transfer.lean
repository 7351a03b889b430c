import Lookahead.Proofs.Embedding
import Lookahead.Proofs.Grammar.Spelling

/-!
Symbols of two definitions with one name. Where the rules of one definition are rules of the other, the
map by names carries productions to productions. So what the sets say by names depends on the rules only,
and not on the numbering.
-/

namespace Lookahead.Grammar

/-- Names of the FIRST set of a symbol given by its name. -/
def firstNames? (g : Grammar) (name : String) : Option (List String) :=
  (g.indexOf? name).bind fun i => (g.firstSets.get? i).bind g.namesOf?

def nullable? (g : Grammar) (name : String) : Option Bool :=
  (g.indexOf? name).map g.firstSets.isNullable

def followNames? (g : Grammar) (name : String) : Option (List String) :=
  (g.indexOf? name).bind fun i => ((g.followSets g.firstSets).get? i).bind g.namesOf?

/-- The symbol of the same name, or the end mark where there is none. -/
def transfer (g g' : Grammar) (i : Nat) : Nat := ((g.name? i).bind g'.indexOf?).getD endMarkIndex

/-- The rules of the kept names are rules of the other definition too, and do not leave the kept names. -/
structure Keeps (rules rules' : List Rule) (epsilon : String) (kept : String → Prop) : Prop where
  declared : ∀ name ∈ leftSides rules, kept name → name ∈ leftSides rules'
  terminal : ∀ name ∈ terminalTokens rules epsilon, kept name → name ∈ terminalTokens rules' epsilon
  right : ∀ name right, kept name → right ∈ rightsOf rules name → right ∈ rightsOf rules' name
  closed : ∀ name right, kept name → right ∈ rightsOf rules name → ∀ token ∈ right, kept token

section Transfer

variable {g g' : Grammar} {rules rules' : List Rule} {start start' epsilon : String}

theorem transfer_eq {name : String} {i j : Nat} (named : g.name? i = some name)
    (found : g'.indexOf? name = some j) : transfer g g' i = j := by
  rw [transfer, named, Option.bind_some, found, Option.getD_some]

theorem name?_transfer {name : String} {i : Nat} (named : g.name? i = some name)
    (shared : transfer g g' i ≠ endMarkIndex) : g'.name? (transfer g g' i) = some name := by
  cases found : g'.indexOf? name with
  | none => simp [transfer, named, found] at shared
  | some j =>
    rw [transfer_eq named found]
    exact name?_of_indexOf? found

theorem transfer_epsilon (same : g.epsilon = g'.epsilon) : transfer g g' epsilonIndex = epsilonIndex := by
  refine transfer_eq (name?_epsilonIndex g) ?_
  rw [indexOf?, if_pos same]

theorem transfer_ruleIndex (acceptable' : Acceptable rules' start' epsilon) {token : String}
    (spelled : IsSpelled rules epsilon token) (spelled' : IsSpelled rules' epsilon token) :
    transfer (ofRules rules start epsilon) (ofRules rules' start' epsilon)
      (ruleIndex rules epsilon token) = ruleIndex rules' epsilon token :=
  transfer_eq (name?_ruleIndex spelled) (indexOf?_ruleIndex acceptable' spelled')

theorem carries_transfer {kept : String → Prop} (acceptable : Acceptable rules start epsilon)
    (acceptable' : Acceptable rules' start' epsilon) (keeps : Keeps rules rules' epsilon kept) :
    (ofRules rules start epsilon).Carries (ofRules rules' start' epsilon)
      (fun i => ∀ name, (ofRules rules start epsilon).name? i = some name → kept name)
      (transfer (ofRules rules start epsilon) (ofRules rules' start' epsilon)) where
  epsilon := transfer_epsilon rfl
  shown i _ shown := by
    intro hidden
    cases named : (ofRules rules start epsilon).name? i with
    | none => simp [transfer, named, endMarkIndex, epsilonIndex] at hidden
    | some name =>
      have same := name?_transfer named (by rw [hidden]; decide)
      rw [hidden, name?_epsilonIndex] at same
      have first := (name?_epsilonIndex (ofRules rules start epsilon)).trans same
      exact shown (eq_of_name? (nodup_names_ofRules acceptable) named first)
  terminal i inside := by
    intro given
    obtain ⟨name, symbol⟩ := given
    have named := name?_of_symbol? symbol
    have listed := keeps.terminal name (mem_terminalTokens_of_symbol? symbol) (inside name named)
    rw [transfer_eq named (indexOf?_ruleIndex acceptable' (.inr (.inr listed)))]
    exact isTerminal_ruleIndex listed
  production i right inside has := by
    obtain ⟨name, declared, rfl, tokens, listed, rfl⟩ := hasProduction_ofRules_iff.1 has
    have named := name?_of_indexOf? (indexOf?_of_mem_leftSides acceptable declared)
    have same := keeps.right name tokens (inside name named) listed
    have declared' := keeps.declared name declared (inside name named)
    rw [transfer_eq named (indexOf?_of_mem_leftSides acceptable' declared')]
    refine hasProduction_ofRules_iff.2 ⟨name, declared', rfl, tokens, same, ?_⟩
    rw [List.map_map]
    refine List.map_congr_left fun token member => ?_
    exact transfer_ruleIndex acceptable' (isSpelled_of_mem_rightsOf listed member)
      (isSpelled_of_mem_rightsOf same member)
  closed i right inside has := by
    obtain ⟨name, declared, rfl, tokens, listed, rfl⟩ := hasProduction_ofRules_iff.1 has
    have named := name?_of_indexOf? (indexOf?_of_mem_leftSides acceptable declared)
    intro symbol member token found
    obtain ⟨other, present, rfl⟩ := List.mem_map.1 member
    rw [name?_ruleIndex (isSpelled_of_mem_rightsOf listed present)] at found
    rw [← Option.some.inj found]
    exact keeps.closed name tokens (inside name named) listed other present

end Transfer

section Undeclared

variable {rules : List Rule} {start epsilon name : String}

theorem firstNames?_of_leaf (acceptable : Acceptable rules start epsilon)
    (leaf : name = epsilon ∨ name ∈ terminalTokens rules epsilon) :
    (ofRules rules start epsilon).firstNames? name = some [name] := by
  have spelled : IsSpelled rules epsilon name := leaf.imp_right .inr
  have other : ¬ (ofRules rules start epsilon).isNonTerminal (ruleIndex rules epsilon name) := by
    rcases leaf with hidden | terminal
    · rw [show ruleIndex rules epsilon name = epsilonIndex from if_pos hidden]
      exact not_isNonTerminal_epsilon _
    · exact (isTerminal_ruleIndex terminal).not_isNonTerminal
  have found := get?_firstSets_of_leaf (wellFormed_ofRules acceptable)
    (usable_ruleIndex acceptable spelled) other
  have names : [ruleIndex rules epsilon name].mapM (ofRules rules start epsilon).name? = some [name] :=
    mapM_eq_some_map (h := fun _ => name) fun _ member =>
      List.mem_singleton.1 member ▸ name?_ruleIndex spelled
  rw [firstNames?, indexOf?_ruleIndex acceptable spelled, Option.bind_some, found, Option.bind_some,
    namesOf?]
  exact (congrArg (Option.map sortNames) names).trans (congrArg some (List.mergeSort_singleton name))

theorem firstNames?_eq_none (acceptable : Acceptable rules start epsilon)
    (other : ¬ IsSpelled rules epsilon name) : (ofRules rules start epsilon).firstNames? name = none := by
  refine Option.bind_eq_none_iff.2 fun i found => Option.bind_eq_none_iff.2 fun first known => ?_
  have usable := (isSome_get?_firstSets (wellFormed_ofRules acceptable) i).1
    (Option.isSome_iff_exists.2 ⟨_, known⟩)
  exact absurd (isSpelled_of_usable usable (name?_of_indexOf? found)) other

theorem followNames?_eq_none (acceptable : Acceptable rules start epsilon)
    (undeclared : name ∉ leftSides rules) : (ofRules rules start epsilon).followNames? name = none := by
  refine Option.bind_eq_none_iff.2 fun i found => Option.bind_eq_none_iff.2 fun follow known => ?_
  have nonTerminal := (isSome_get?_followSets (wellFormed_ofRules acceptable).start _ i).1
    (Option.isSome_iff_exists.2 ⟨_, known⟩)
  exact absurd (mem_leftSides_of_isNonTerminal nonTerminal (name?_of_indexOf? found)) undeclared

end Undeclared

section Agreement

variable {rules rules' : List Rule} {start start' epsilon : String} {kept : String → Prop} {name : String}

theorem exists_firstSet (acceptable : Acceptable rules start epsilon)
    (declared : name ∈ leftSides rules) :
    ∃ first, (ofRules rules start epsilon).firstSets.get? (markerCount + (leftSides rules).idxOf name) =
      some first ∧
      (ofRules rules start epsilon).firstNames? name = (ofRules rules start epsilon).namesOf? first := by
  have usable := (isSome_get?_firstSets (wellFormed_ofRules acceptable) _).2
    (.inr (.inl (isNonTerminal_of_mem_leftSides declared)))
  obtain ⟨first, found⟩ := Option.isSome_iff_exists.1 usable
  refine ⟨first, found, ?_⟩
  rw [firstNames?, indexOf?_of_mem_leftSides acceptable declared, Option.bind_some, found,
    Option.bind_some]

theorem exists_followSet (acceptable : Acceptable rules start epsilon)
    (declared : name ∈ leftSides rules) :
    ∃ follow, ((ofRules rules start epsilon).followSets (ofRules rules start epsilon).firstSets).get?
        (markerCount + (leftSides rules).idxOf name) = some follow ∧
      (ofRules rules start epsilon).followNames? name =
        (ofRules rules start epsilon).namesOf? follow := by
  have known := (isSome_get?_followSets (wellFormed_ofRules acceptable).start
    (ofRules rules start epsilon).firstSets _).2 (isNonTerminal_of_mem_leftSides declared)
  obtain ⟨follow, found⟩ := Option.isSome_iff_exists.1 known
  refine ⟨follow, found, ?_⟩
  rw [followNames?, indexOf?_of_mem_leftSides acceptable declared, Option.bind_some, found,
    Option.bind_some]

theorem exists_name_of_first (acceptable : Acceptable rules start epsilon)
    (acceptable' : Acceptable rules' start' epsilon) (keeps : Keeps rules rules' epsilon kept)
    (declared : name ∈ leftSides rules) (keeping : kept name) {first first' : IndexSet}
    (found : (ofRules rules start epsilon).firstSets.get?
      (markerCount + (leftSides rules).idxOf name) = some first)
    (found' : (ofRules rules' start' epsilon).firstSets.get?
      (markerCount + (leftSides rules').idxOf name) = some first') {token : String}
    (given : ∃ i ∈ first, (ofRules rules start epsilon).name? i = some token) :
    ∃ i ∈ first', (ofRules rules' start' epsilon).name? i = some token := by
  obtain ⟨i, member, named⟩ := given
  have wellFormed' := wellFormed_ofRules acceptable'
  have place := name?_of_indexOf? (indexOf?_of_mem_leftSides acceptable declared)
  have declared' := keeps.declared name declared keeping
  rw [← transfer_eq place (indexOf?_of_mem_leftSides acceptable' declared')] at found'
  have inside (other : String) (same : (ofRules rules start epsilon).name? _ = some other) : kept other :=
    Option.some.inj (place.symm.trans same) ▸ keeping
  have carried := (carries_transfer acceptable acceptable' keeps).firstSets
    (wellFormed_ofRules acceptable) wellFormed' inside found found' member
  exact ⟨_, carried, name?_transfer named (usable_of_mem_firstSets wellFormed' found' carried).ne_endMark⟩

theorem firstNames?_congr (acceptable : Acceptable rules start epsilon)
    (acceptable' : Acceptable rules' start' epsilon) (keeps : Keeps rules rules' epsilon kept)
    (keeps' : Keeps rules' rules epsilon kept) (declared : name ∈ leftSides rules) (keeping : kept name) :
    ((ofRules rules start epsilon).firstNames? name).isSome ∧
      (ofRules rules start epsilon).firstNames? name =
        (ofRules rules' start' epsilon).firstNames? name := by
  have declared' := keeps.declared name declared keeping
  have wellFormed := wellFormed_ofRules acceptable
  have wellFormed' := wellFormed_ofRules acceptable'
  obtain ⟨first, found, names⟩ := exists_firstSet acceptable declared
  obtain ⟨first', found', names'⟩ := exists_firstSet acceptable' declared'
  rw [names, names']
  refine namesOf?_congr (nodup_names_ofRules acceptable) (nodup_names_ofRules acceptable')
    (fun i => lt_size_of_mem_firstSets wellFormed found)
    (fun i => lt_size_of_mem_firstSets wellFormed' found') ?_
  intro token
  exact ⟨exists_name_of_first acceptable acceptable' keeps declared keeping found found',
    exists_name_of_first acceptable' acceptable keeps' declared' keeping found' found⟩

theorem isNullable_of_keeps (acceptable : Acceptable rules start epsilon)
    (acceptable' : Acceptable rules' start' epsilon) (keeps : Keeps rules rules' epsilon kept)
    (declared : name ∈ leftSides rules) (keeping : kept name)
    (nullable : (ofRules rules start epsilon).firstSets.isNullable
      (markerCount + (leftSides rules).idxOf name)) :
    (ofRules rules' start' epsilon).firstSets.isNullable
      (markerCount + (leftSides rules').idxOf name) := by
  have place := name?_of_indexOf? (indexOf?_of_mem_leftSides acceptable declared)
  have declared' := keeps.declared name declared keeping
  have carries := carries_transfer acceptable acceptable' keeps
  rw [FirstSets.isNullable_iff, mem_ofSequence_firstSets (wellFormed_ofRules acceptable)] at nullable
  rw [FirstSets.isNullable_iff, mem_ofSequence_firstSets (wellFormed_ofRules acceptable'),
    ← transfer_eq place (indexOf?_of_mem_leftSides acceptable' declared'), ← carries.epsilon]
  refine carries.leads ?_ nullable
  intro symbol member other same
  rw [List.mem_singleton.1 member, place] at same
  exact Option.some.inj same ▸ keeping

theorem nullable?_congr (acceptable : Acceptable rules start epsilon)
    (acceptable' : Acceptable rules' start' epsilon) (keeps : Keeps rules rules' epsilon kept)
    (keeps' : Keeps rules' rules epsilon kept) (declared : name ∈ leftSides rules) (keeping : kept name) :
    ((ofRules rules start epsilon).nullable? name).isSome ∧
      (ofRules rules start epsilon).nullable? name = (ofRules rules' start' epsilon).nullable? name := by
  have declared' := keeps.declared name declared keeping
  rw [nullable?, nullable?, indexOf?_of_mem_leftSides acceptable declared,
    indexOf?_of_mem_leftSides acceptable' declared']
  refine ⟨rfl, congrArg some (Bool.eq_iff_iff.2 ⟨?_, ?_⟩)⟩
  · exact isNullable_of_keeps acceptable acceptable' keeps declared keeping
  · exact isNullable_of_keeps acceptable' acceptable keeps' declared' keeping

/-- FOLLOW looks at all rules and at the start symbol. -/
theorem exists_name_of_follow (acceptable : Acceptable rules start epsilon)
    (acceptable' : Acceptable rules' start epsilon) (keeps : Keeps rules rules' epsilon fun _ => True)
    (declared : name ∈ leftSides rules) {follow follow' : IndexSet}
    (found : ((ofRules rules start epsilon).followSets (ofRules rules start epsilon).firstSets).get?
      (markerCount + (leftSides rules).idxOf name) = some follow)
    (found' : ((ofRules rules' start epsilon).followSets (ofRules rules' start epsilon).firstSets).get?
      (markerCount + (leftSides rules').idxOf name) = some follow') {token : String}
    (given : ∃ i ∈ follow, (ofRules rules start epsilon).name? i = some token) :
    ∃ i ∈ follow', (ofRules rules' start epsilon).name? i = some token := by
  obtain ⟨i, member, named⟩ := given
  have wellFormed := wellFormed_ofRules acceptable
  have carries := carries_transfer acceptable acceptable' keeps
  have place := name?_of_indexOf? (indexOf?_of_mem_leftSides acceptable declared)
  rw [← transfer_eq place (indexOf?_of_mem_leftSides acceptable' (keeps.declared name declared trivial))]
    at found'
  have endMark : transfer (ofRules rules start epsilon) (ofRules rules' start epsilon) endMarkIndex =
      endMarkIndex := by
    refine transfer_eq (name?_endMarkIndex _) ?_
    rw [indexOf?_eq_some_iff (nodup_names_ofRules acceptable'), name?_endMarkIndex]
  have starts := transfer_eq (name?_of_indexOf? (indexOf?_start acceptable)) (indexOf?_start acceptable')
  have carried := carries.followSets wellFormed (wellFormed_ofRules acceptable') (fun _ _ _ => trivial)
    endMark starts found found' member
  refine ⟨_, carried, ?_⟩
  rcases endMark_or_terminal_of_mem_followSets wellFormed found member with rfl | terminal
  · rw [endMark, ← named, name?_endMarkIndex, name?_endMarkIndex]
  · exact name?_transfer named (carries.terminal i (fun _ _ => trivial) terminal).ne_endMark

theorem followNames?_congr (acceptable : Acceptable rules start epsilon)
    (acceptable' : Acceptable rules' start epsilon) (keeps : Keeps rules rules' epsilon fun _ => True)
    (keeps' : Keeps rules' rules epsilon fun _ => True) (declared : name ∈ leftSides rules) :
    ((ofRules rules start epsilon).followNames? name).isSome ∧
      (ofRules rules start epsilon).followNames? name =
        (ofRules rules' start epsilon).followNames? name := by
  have declared' := keeps.declared name declared trivial
  obtain ⟨follow, found, names⟩ := exists_followSet acceptable declared
  obtain ⟨follow', found', names'⟩ := exists_followSet acceptable' declared'
  rw [names, names']
  refine namesOf?_congr (nodup_names_ofRules acceptable) (nodup_names_ofRules acceptable')
    (fun i => lt_size_of_mem_followSets (wellFormed_ofRules acceptable) found)
    (fun i => lt_size_of_mem_followSets (wellFormed_ofRules acceptable') found') ?_
  intro token
  exact ⟨exists_name_of_follow acceptable acceptable' keeps declared found found',
    exists_name_of_follow acceptable' acceptable keeps' declared' found' found⟩

end Agreement

end Lookahead.Grammar
