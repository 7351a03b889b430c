import Lookahead.Proofs.Transfer

/-!
Parts of a definition that do not look outside. Where two definitions share such a part, its FIRST sets are
the same by name, whatever the other rules and the numbers of the symbols are.
-/

namespace Lookahead.Grammar

/-- Both definitions declare the names of the part, with the same right sides, and these mention no
other name that either of them declares. -/
structure SharedPart (rules rules' : List Rule) (part : Set String) : Prop where
  declared : ∀ name ∈ part, name ∈ rules.map (·.left) ∧ name ∈ rules'.map (·.left)
  rights : ∀ name ∈ part, ∀ right, (∃ rule ∈ rules, rule.left = name ∧ right ∈ rule.rights) ↔
    ∃ rule ∈ rules', rule.left = name ∧ right ∈ rule.rights
  closed : ∀ rule ∈ rules, rule.left ∈ part → ∀ right ∈ rule.rights, ∀ token ∈ right,
    token ∈ rules.map (·.left) ∨ token ∈ rules'.map (·.left) → token ∈ part

variable {rules rules' : List Rule} {part : Set String}

theorem SharedPart.symm (shared : SharedPart rules rules' part) : SharedPart rules' rules part where
  declared name member := (shared.declared name member).symm
  rights name member right := (shared.rights name member right).symm
  closed rule listed inside right given token present either := by
    obtain ⟨other, listed', same, given'⟩ :=
      (shared.rights rule.left inside right).2 ⟨rule, listed, rfl, given⟩
    exact shared.closed other listed' (same ▸ inside) right given' token present either.symm

theorem SharedPart.mem_rightsOf (shared : SharedPart rules rules' part) {name : String}
    (inside : name ∈ part) {right : List String} :
    right ∈ rightsOf rules name ↔ right ∈ rightsOf rules' name := by
  rw [Grammar.mem_rightsOf, Grammar.mem_rightsOf]
  exact shared.rights name inside right

/-- The names of a part and the tokens of its right sides. -/
def Mentioned (rules : List Rule) (part : Set String) (name : String) : Prop :=
  name ∈ part ∨ ∃ other ∈ part, ∃ right ∈ rightsOf rules other, name ∈ right

theorem SharedPart.mentioned_eq (shared : SharedPart rules rules' part) :
    Mentioned rules part = Mentioned rules' part := by
  funext name
  refine propext (or_congr_right (exists_congr fun other => and_congr_right fun inside => ?_))
  simp only [shared.mem_rightsOf inside]

theorem SharedPart.mem_of_mentioned (shared : SharedPart rules rules' part) {name : String}
    (declared : name ∈ leftSides rules ∨ name ∈ leftSides rules') (mentioned : Mentioned rules part name) :
    name ∈ part := by
  rcases mentioned with inside | ⟨other, inside, right, listed, member⟩
  · exact inside
  · obtain ⟨rule, present, rfl, given⟩ := Grammar.mem_rightsOf.1 listed
    exact shared.closed rule present inside right given name member
      (declared.imp List.mem_eraseDups.1 List.mem_eraseDups.1)

theorem SharedPart.keeps (shared : SharedPart rules rules' part) (epsilon : String) :
    Keeps rules rules' epsilon (Mentioned rules part) where
  declared name declared mentioned := by
    have inside := shared.mem_of_mentioned (.inl declared) mentioned
    exact List.mem_eraseDups.2 (shared.declared name inside).2
  terminal name terminal mentioned := by
    obtain ⟨-, shown, undeclared⟩ := mem_terminalTokens.1 terminal
    -- a terminal of one definition that the other one declares would belong to the part
    have outside : name ∉ part := fun inside =>
      undeclared (List.mem_eraseDups.2 (shared.declared name inside).1)
    obtain ⟨other, inside, right, listed, member⟩ := mentioned.resolve_left outside
    obtain ⟨rule, present, -, given⟩ := Grammar.mem_rightsOf.1 ((shared.mem_rightsOf inside).1 listed)
    refine mem_terminalTokens.2 ⟨mem_tokens.2 ⟨rule, present, right, given, member⟩, shown, ?_⟩
    exact fun declared =>
      outside (shared.mem_of_mentioned (.inr declared) (.inr ⟨other, inside, right, listed, member⟩))
  right name right mentioned listed := by
    have inside := shared.mem_of_mentioned (.inl (mem_leftSides_of_mem_rightsOf listed)) mentioned
    exact (shared.mem_rightsOf inside).1 listed
  closed name right mentioned listed token member := by
    have inside := shared.mem_of_mentioned (.inl (mem_leftSides_of_mem_rightsOf listed)) mentioned
    exact .inr ⟨name, inside, right, listed, member⟩

/-- FIRST and nullability of a shared part do not depend on the rest of the two definitions. -/
theorem first_eq_of_sharedPart {start start' epsilon : String} {g g' : Grammar}
    (accepted : build rules start epsilon = .ok g) (accepted' : build rules' start' epsilon = .ok g')
    (shared : SharedPart rules rules' part) :
    ∀ name ∈ part,
      ((g.firstNames? name).isSome ∧ g.firstNames? name = g'.firstNames? name) ∧
      (g.nullable? name).isSome ∧ g.nullable? name = g'.nullable? name := by
  intro name inside
  obtain ⟨acceptable, rfl⟩ := build_eq_ok_iff.1 accepted
  obtain ⟨acceptable', rfl⟩ := build_eq_ok_iff.1 accepted'
  have declared : name ∈ leftSides rules := List.mem_eraseDups.2 (shared.declared name inside).1
  have keeps := shared.keeps epsilon
  have keeps' := shared.symm.keeps epsilon
  rw [← shared.mentioned_eq] at keeps'
  exact ⟨firstNames?_congr acceptable acceptable' keeps keeps' declared (.inl inside),
    nullable?_congr acceptable acceptable' keeps keeps' declared (.inl inside)⟩

/-- `A → B x` and `B → A y | ε` are shared. One definition goes on with `S → A z`, the other one starts with
the rules of `B` and of a `z` that `A` does not reach. -/
theorem first_eq_of_sharedPart_mutual_recursion : ∃ g g',
    build [⟨"S", [["A", "z"]]⟩, ⟨"A", [["B", "x"]]⟩, ⟨"B", [["A", "y"], ["ε"]]⟩] "S" "ε" = .ok g ∧
    build [⟨"B", [["A", "y"], ["ε"]]⟩, ⟨"z", [["B"]]⟩, ⟨"A", [["B", "x"]]⟩] "z" "ε" = .ok g' ∧
    g.indexOf? "A" ≠ g'.indexOf? "A" ∧
    g.firstNames? "A" = some ["x"] ∧ g'.firstNames? "A" = some ["x"] ∧
    g.nullable? "B" = some true ∧ g'.nullable? "B" = some true := by
  have accepted : build [⟨"S", [["A", "z"]]⟩, ⟨"A", [["B", "x"]]⟩, ⟨"B", [["A", "y"], ["ε"]]⟩] "S" "ε" =
      .ok ⟨"ε", [⟨"S", [[3, 5]]⟩, ⟨"A", [[4, 6]]⟩, ⟨"B", [[3, 7], [0]]⟩], ["z", "x", "y"], 2⟩ := rfl
  have accepted' : build [⟨"B", [["A", "y"], ["ε"]]⟩, ⟨"z", [["B"]]⟩, ⟨"A", [["B", "x"]]⟩] "z" "ε" =
      .ok ⟨"ε", [⟨"B", [[4, 5], [0]]⟩, ⟨"z", [[2]]⟩, ⟨"A", [[2, 6]]⟩], ["y", "x"], 3⟩ := rfl
  have shared : SharedPart [⟨"S", [["A", "z"]]⟩, ⟨"A", [["B", "x"]]⟩, ⟨"B", [["A", "y"], ["ε"]]⟩]
      [⟨"B", [["A", "y"], ["ε"]]⟩, ⟨"z", [["B"]]⟩, ⟨"A", [["B", "x"]]⟩] {"A", "B"} := by
    refine ⟨by simp, ?_, by simp⟩
    rintro name (rfl | rfl) right <;> simp
  have both := first_eq_of_sharedPart accepted accepted' shared
  have names : firstNames? ⟨"ε", [⟨"S", [[3, 5]]⟩, ⟨"A", [[4, 6]]⟩, ⟨"B", [[3, 7], [0]]⟩],
      ["z", "x", "y"], 2⟩ "A" = some ["x"] := by decide +kernel
  have vanishes : nullable? ⟨"ε", [⟨"S", [[3, 5]]⟩, ⟨"A", [[4, 6]]⟩, ⟨"B", [[3, 7], [0]]⟩],
      ["z", "x", "y"], 2⟩ "B" = some true := by decide +kernel
  exact ⟨_, _, accepted, accepted', by decide +kernel, names, (both "A" (by simp)).1.2 ▸ names, vanishes,
    (both "B" (by simp)).2.2 ▸ vanishes⟩

end Lookahead.Grammar
