import Lookahead.Proofs.Transfer

/-!
Definitions with the same rules in another order, in other groups or more than once. They are accepted
together, and their sets have the same names although all indices may differ.
-/

namespace Lookahead.Grammar

/-- The same left sides, and for each of them the same right sides over all of its rules. -/
structure SameRules (rules rules' : List Rule) : Prop where
  lefts : ∀ name, (∃ rule ∈ rules, rule.left = name) ↔ ∃ rule ∈ rules', rule.left = name
  rights : ∀ name right, (∃ rule ∈ rules, rule.left = name ∧ right ∈ rule.rights) ↔
    ∃ rule ∈ rules', rule.left = name ∧ right ∈ rule.rights

variable {rules rules' : List Rule} {start epsilon : String}

theorem SameRules.symm (same : SameRules rules rules') : SameRules rules' rules :=
  ⟨fun name => (same.lefts name).symm, fun name right => (same.rights name right).symm⟩

theorem SameRules.mem_leftSides (same : SameRules rules rules') {name : String} :
    name ∈ leftSides rules ↔ name ∈ leftSides rules' := by
  rw [Grammar.mem_leftSides, Grammar.mem_leftSides]
  exact same.lefts name

theorem SameRules.mem_rightsOf (same : SameRules rules rules') {name : String} {right : List String} :
    right ∈ rightsOf rules name ↔ right ∈ rightsOf rules' name := by
  rw [Grammar.mem_rightsOf, Grammar.mem_rightsOf]
  exact same.rights name right

theorem SameRules.mem_tokens_of_mem (same : SameRules rules rules') {token : String}
    (member : token ∈ tokens rules) : token ∈ tokens rules' := by
  obtain ⟨rule, listed, right, given, present⟩ := mem_tokens.1 member
  obtain ⟨other, listed', -, given'⟩ := (same.rights rule.left right).1 ⟨rule, listed, rfl, given⟩
  exact mem_tokens.2 ⟨other, listed', right, given', present⟩

theorem SameRules.acceptable (same : SameRules rules rules')
    (acceptable : Acceptable rules start epsilon) : Acceptable rules' start epsilon where
  epsilon_visible := acceptable.epsilon_visible
  epsilon_free := acceptable.epsilon_free
  left_free rule listed := by
    obtain ⟨other, given, equal⟩ := (same.lefts rule.left).2 ⟨rule, listed, rfl⟩
    exact equal ▸ acceptable.left_free other given
  left_visible rule listed := by
    obtain ⟨other, given, equal⟩ := (same.lefts rule.left).2 ⟨rule, listed, rfl⟩
    exact equal ▸ acceptable.left_visible other given
  token_free token member := acceptable.token_free token (same.symm.mem_tokens_of_mem member)
  token_visible token member := acceptable.token_visible token (same.symm.mem_tokens_of_mem member)
  start_declared := by
    obtain ⟨rule, listed, equal⟩ := List.mem_map.1 acceptable.start_declared
    exact List.mem_map.2 ((same.lefts start).1 ⟨rule, listed, equal⟩)
  productive rule listed := by
    obtain ⟨other, given, equal⟩ := (same.lefts rule.left).2 ⟨rule, listed, rfl⟩
    obtain ⟨right, present⟩ := List.exists_mem_of_ne_nil _ (acceptable.productive other given)
    rw [equal] at present
    exact List.ne_nil_of_mem (same.mem_rightsOf.1 present)

theorem SameRules.keeps (same : SameRules rules rules') (epsilon : String) :
    Keeps rules rules' epsilon fun _ => True where
  declared name declared _ := same.mem_leftSides.1 declared
  terminal name terminal _ := by
    obtain ⟨member, shown, undeclared⟩ := mem_terminalTokens.1 terminal
    refine mem_terminalTokens.2 ⟨same.mem_tokens_of_mem member, shown, ?_⟩
    exact fun declared => undeclared (same.mem_leftSides.2 declared)
  right name right _ listed := same.mem_rightsOf.1 listed
  closed _ _ _ _ _ _ := trivial

theorem accepted_iff_of_sameRules (same : SameRules rules rules') :
    (∃ g, build rules start epsilon = .ok g) ↔ ∃ g, build rules' start epsilon = .ok g := by
  simp only [build_eq_ok_iff, exists_and_left, exists_eq, and_true]
  exact ⟨same.acceptable, same.symm.acceptable⟩

/-- Acceptance and the names in the sets depend on the rules, not on how they are listed. -/
theorem sets_eq_of_sameRules (same : SameRules rules rules') (start epsilon : String) :
    ((∃ g, build rules start epsilon = .ok g) ↔ ∃ g, build rules' start epsilon = .ok g) ∧
    ∀ g g', build rules start epsilon = .ok g → build rules' start epsilon = .ok g' →
      ∀ name ∈ rules.map (·.left),
        ((g.firstNames? name).isSome ∧ g.firstNames? name = g'.firstNames? name) ∧
        ((g.nullable? name).isSome ∧ g.nullable? name = g'.nullable? name) ∧
        (g.followNames? name).isSome ∧ g.followNames? name = g'.followNames? name := by
  refine ⟨accepted_iff_of_sameRules same, ?_⟩
  intro g g' accepted accepted' name member
  obtain ⟨acceptable, rfl⟩ := build_eq_ok_iff.1 accepted
  obtain ⟨acceptable', rfl⟩ := build_eq_ok_iff.1 accepted'
  have declared : name ∈ leftSides rules := List.mem_eraseDups.2 member
  have keeps := same.keeps epsilon
  have keeps' := same.symm.keeps epsilon
  exact ⟨firstNames?_congr acceptable acceptable' keeps keeps' declared trivial,
    nullable?_congr acceptable acceptable' keeps keeps' declared trivial,
    followNames?_congr acceptable acceptable' keeps keeps' declared⟩

/-- `S → A S a | b` and `A → ε`, and again with `A` first, `S` in two rules and `b` twice. -/
theorem sets_eq_of_sameRules_hidden_recursion : ∃ g g',
    SameRules [⟨"S", [["A", "S", "a"], ["b"]]⟩, ⟨"A", [["ε"]]⟩]
      [⟨"A", [["ε"]]⟩, ⟨"S", [["b"], ["b"]]⟩, ⟨"S", [["A", "S", "a"]]⟩] ∧
    build [⟨"S", [["A", "S", "a"], ["b"]]⟩, ⟨"A", [["ε"]]⟩] "S" "ε" = .ok g ∧
    build [⟨"A", [["ε"]]⟩, ⟨"S", [["b"], ["b"]]⟩, ⟨"S", [["A", "S", "a"]]⟩] "S" "ε" = .ok g' ∧
    g.indexOf? "A" ≠ g'.indexOf? "A" ∧
    g.nullable? "A" = some true ∧ g'.nullable? "A" = some true ∧
    g.followNames? "A" = some ["b"] ∧ g'.followNames? "A" = some ["b"] := by
  have same : SameRules [⟨"S", [["A", "S", "a"], ["b"]]⟩, ⟨"A", [["ε"]]⟩]
      [⟨"A", [["ε"]]⟩, ⟨"S", [["b"], ["b"]]⟩, ⟨"S", [["A", "S", "a"]]⟩] := by
    constructor <;> intros <;> simp <;> grind
  have accepted : build [⟨"S", [["A", "S", "a"], ["b"]]⟩, ⟨"A", [["ε"]]⟩] "S" "ε" =
      .ok ⟨"ε", [⟨"S", [[3, 2, 4], [5]]⟩, ⟨"A", [[0]]⟩], ["a", "b"], 2⟩ := rfl
  have accepted' : build [⟨"A", [["ε"]]⟩, ⟨"S", [["b"], ["b"]]⟩, ⟨"S", [["A", "S", "a"]]⟩] "S" "ε" =
      .ok ⟨"ε", [⟨"A", [[0]]⟩, ⟨"S", [[4], [4], [2, 3, 5]]⟩], ["b", "a"], 3⟩ := rfl
  obtain ⟨-, nullable, follow⟩ :=
    (sets_eq_of_sameRules same "S" "ε").2 _ _ accepted accepted' "A" (by decide)
  have vanishes : nullable? ⟨"ε", [⟨"S", [[3, 2, 4], [5]]⟩, ⟨"A", [[0]]⟩], ["a", "b"], 2⟩ "A" =
      some true := by decide +kernel
  have names : followNames? ⟨"ε", [⟨"S", [[3, 2, 4], [5]]⟩, ⟨"A", [[0]]⟩], ["a", "b"], 2⟩ "A" =
      some ["b"] := by decide +kernel
  exact ⟨_, _, same, accepted, accepted', by decide +kernel, vanishes, nullable.2 ▸ vanishes, names,
    follow.2 ▸ names⟩

end Lookahead.Grammar
