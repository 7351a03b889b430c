import Lookahead.Proofs.FirstSets.Exact
import Lookahead.Proofs.FollowSets.LeastSolution

/-!
FOLLOW sets against derivations. What can come after a nonterminal solves the constraints by the
grammar's own FIRST sets, and every solution has it.
-/

namespace Lookahead.Grammar

/-- The meaning of FOLLOW: terminals that stand after the symbol in a form that some nonterminal
derives, and the end mark if the symbol stands last in a form that the start symbol derives. -/
def ComesAfter (g : Grammar) (symbol i : Nat) : Prop :=
  (g.IsTerminal i ∧ ∃ origin, g.isNonTerminal origin ∧
    ∃ before after, g.Derives [origin] (before ++ symbol :: i :: after)) ∨
  i = endMarkIndex ∧ ∃ before, g.Derives [g.start] (before ++ [symbol])

variable {g : Grammar}

theorem Occurs.derives {origin source symbol : Nat} {left right after result : List Nat}
    (occurs : g.Occurs source symbol after)
    (derived : g.Derives [origin] (left ++ source :: right))
    (later : g.Derives (visible after) result) :
    ∃ before, g.Derives [origin] (before ++ symbol :: (result ++ right)) := by
  obtain ⟨nonTerminal, before, has⟩ := occurs
  have shown : symbol ≠ epsilonIndex := by
    intro same
    subst same
    exact not_isNonTerminal_epsilon g nonTerminal
  have expanded := derived.tail (.expand left right has)
  rw [visible_append, visible_cons, visible_singleton shown] at expanded
  have context := later.context (left ++ visible before ++ [symbol]) right
  simp only [List.append_assoc, List.cons_append] at expanded context
  refine ⟨left ++ visible before, ?_⟩
  rw [List.append_assoc]
  exact expanded.trans context

theorem solves_comesAfter (wellFormed : g.WellFormed) :
    g.Solves g.firstSets fun symbol => {i | g.ComesAfter symbol i} := by
  refine ⟨.inr ⟨rfl, [], .refl⟩, ?_, ?_⟩
  · intro source symbol after occurs i ahead shown
    have leads := (mem_ofSequence_firstSets wellFormed after i).1 ahead
    rcases leads with ⟨hidden, -⟩ | ⟨terminal, rest, derived⟩
    · exact absurd hidden shown
    · obtain ⟨-, _, has⟩ := id occurs
      have start : g.Derives [source] ([] ++ source :: []) := .refl
      obtain ⟨before, whole⟩ := occurs.derives start derived
      rw [List.append_nil] at whole
      exact .inl ⟨terminal, source, has.isNonTerminal, before, rest, whole⟩
  · intro source symbol after occurs vanishing i behind
    have vanishes := leads_epsilon.1 ((mem_ofSequence_firstSets wellFormed after _).1 vanishing)
    rcases behind with ⟨terminal, origin, nonTerminal, left, right, derived⟩ | ⟨rfl, left, derived⟩
    · obtain ⟨before, whole⟩ := occurs.derives derived vanishes
      exact .inl ⟨terminal, origin, nonTerminal, before, right, whole⟩
    · obtain ⟨before, whole⟩ := occurs.derives derived vanishes
      exact .inr ⟨rfl, before, whole⟩

theorem exists_of_visible_eq {sequence before after : List Nat} {symbol : Nat}
    (whole : visible sequence = before ++ symbol :: after) :
    ∃ left right, sequence = left ++ symbol :: right ∧ visible right = after := by
  obtain ⟨left, rest, rfl, -, found⟩ := List.filter_eq_append_iff.1 whole
  obtain ⟨hidden, right, rfl, -, -, same⟩ := List.filter_eq_cons_iff.1 found
  exact ⟨left ++ hidden, right, by simp, same⟩

/-- What is derived from `after` is no more than the set of the symbol has, and the set has all that
the origin has if nothing remains of `after`. -/
private structure Covers (g : Grammar) (family : Nat → Set Nat) (origin symbol : Nat)
    (after : List Nat) : Prop where
  terminal : ∀ t rest, g.IsTerminal t → g.Derives after (t :: rest) → t ∈ family symbol
  inherits : g.Derives after [] → family origin ⊆ family symbol

private theorem Covers.of_derives {family : Nat → Set Nat} {origin symbol : Nat}
    {after later : List Nat} (covers : g.Covers family origin symbol after)
    (derived : g.Derives after later) : g.Covers family origin symbol later :=
  ⟨fun t rest terminal begins => covers.terminal t rest terminal (derived.trans begins),
    fun vanishes => covers.inherits (derived.trans vanishes)⟩

private theorem Covers.of_occurs (wellFormed : g.WellFormed) {family : Nat → Set Nat}
    (solves : g.Solves g.firstSets family) {origin source symbol : Nat} {inner after : List Nat}
    (occurs : g.Occurs source symbol inner) (covers : g.Covers family origin source after) :
    g.Covers family origin symbol (visible inner ++ after) := by
  have inherits (vanishes : g.Vanishes inner) : family source ⊆ family symbol := by
    apply solves.behind source symbol inner occurs
    exact (mem_ofSequence_firstSets wellFormed inner _).2 (leads_epsilon.2 vanishes)
  refine ⟨?_, ?_⟩
  · intro t rest terminal derived
    obtain ⟨left, right, whole, first, second⟩ := derived.split
    cases left with
    | nil =>
      rw [List.nil_append] at whole
      exact inherits first (covers.terminal t rest terminal (whole ▸ second))
    | cons head tail =>
      obtain ⟨rfl, -⟩ := List.cons.inj whole
      apply solves.ahead source symbol inner occurs t _ terminal.ne_epsilon
      exact (mem_ofSequence_firstSets wellFormed inner t).2 (.inr ⟨terminal, tail, first⟩)
  · intro derived
    obtain ⟨left, right, whole, first, second⟩ := derived.split
    obtain ⟨rfl, rfl⟩ := List.append_eq_nil_iff.1 whole.symm
    exact (covers.inherits second).trans (inherits first)

private theorem covers_of_derives (wellFormed : g.WellFormed) {family : Nat → Set Nat}
    (solves : g.Solves g.firstSets family) {origin : Nat} {form : List Nat}
    (derived : g.Derives [origin] form) :
    ∀ before symbol after, form = before ++ symbol :: after → g.isNonTerminal symbol →
      g.Covers family origin symbol after := by
  induction derived with
  | refl =>
    intro before symbol after whole _
    obtain ⟨-, rfl, rfl⟩ : before = [] ∧ symbol = origin ∧ after = [] := by
      simpa [List.append_eq_singleton_iff] using whole.symm
    refine ⟨?_, fun _ => subset_rfl⟩
    intro t rest _ impossible
    simpa using impossible.nil_eq
  | tail _ step ih =>
    intro before symbol after whole nonTerminal
    obtain ⟨left, source, right, rest, rfl, has, rfl⟩ := step.exists_parts
    have older := ih left source rest rfl has.isNonTerminal
    -- only a symbol of the new production meets its constraints, the others were there before
    rcases append_eq_append_cons whole with ⟨middle, inside, rfl⟩ | ⟨middle, rfl, rfl⟩
    · rcases append_eq_append_cons inside with ⟨beside, rfl, rfl⟩ | ⟨beside, rfl, brought⟩
      · have same := ih before symbol (beside ++ source :: rest) (by simp) nonTerminal
        exact same.of_derives (.single (.expand beside rest has))
      · obtain ⟨front, inner, rfl, rfl⟩ := exists_of_visible_eq brought
        exact .of_occurs wellFormed solves ⟨nonTerminal, front, has⟩ older
    · exact ih (left ++ source :: middle) symbol after (by simp) nonTerminal

theorem comesAfter_of_solves (wellFormed : g.WellFormed) {family : Nat → Set Nat}
    (solves : g.Solves g.firstSets family) {symbol : Nat} (nonTerminal : g.isNonTerminal symbol) {i : Nat}
    (comes : g.ComesAfter symbol i) : i ∈ family symbol := by
  rcases comes with ⟨terminal, origin, -, before, after, derived⟩ | ⟨rfl, before, derived⟩
  · have covers := covers_of_derives wellFormed solves derived before symbol _ rfl nonTerminal
    exact covers.terminal i after terminal .refl
  · have covers := covers_of_derives wellFormed solves derived before symbol _ rfl nonTerminal
    exact covers.inherits .refl solves.endMark

theorem mem_family_iff (wellFormed : g.WellFormed) {symbol : Nat}
    (nonTerminal : g.isNonTerminal symbol) (i : Nat) :
    i ∈ (g.followSets g.firstSets).family symbol ↔ g.ComesAfter symbol i := by
  obtain ⟨solves, least⟩ := isLeast_family wellFormed.start g.firstSets
  constructor
  · intro member
    exact least (solves_comesAfter wellFormed) symbol member
  · intro comes
    exact comesAfter_of_solves wellFormed solves nonTerminal comes

theorem comesAfter_terminal_iff {symbol t : Nat} (terminal : g.IsTerminal t) :
    g.ComesAfter symbol t ↔ ∃ origin, g.isNonTerminal origin ∧
      ∃ before after, g.Derives [origin] (before ++ symbol :: t :: after) := by
  constructor
  · intro either
    rcases either with ⟨-, comes⟩ | ⟨rfl, -⟩
    · exact comes
    · exact absurd rfl terminal.ne_endMark
  · exact fun comes => .inl ⟨terminal, comes⟩

theorem comesAfter_endMark_iff {symbol : Nat} : g.ComesAfter symbol endMarkIndex ↔
    ∃ before, g.Derives [g.start] (before ++ [symbol]) := by
  constructor
  · intro either
    rcases either with ⟨terminal, -⟩ | ⟨-, comes⟩
    · exact absurd rfl terminal.ne_endMark
    · exact comes
  · exact fun comes => .inr ⟨rfl, comes⟩

theorem mem_followSets_iff (wellFormed : g.WellFormed) {symbol : Nat} {follow : IndexSet}
    (found : (g.followSets g.firstSets).get? symbol = some follow) (i : Nat) :
    i ∈ follow ↔ g.ComesAfter symbol i := by
  have known := (isSome_get?_followSets wellFormed.start g.firstSets symbol).1 (found ▸ rfl)
  rw [← mem_family_iff wellFormed known]
  simp [FollowSets.family, found]

theorem endMark_or_terminal_of_mem_followSets (wellFormed : g.WellFormed) {symbol : Nat}
    {follow : IndexSet} (found : (g.followSets g.firstSets).get? symbol = some follow) {i : Nat}
    (member : i ∈ follow) : i = endMarkIndex ∨ g.IsTerminal i := by
  rcases (mem_followSets_iff wellFormed found i).1 member with ⟨terminal, -⟩ | ⟨rfl, -⟩
  · exact .inr terminal
  · exact .inl rfl

/-- FOLLOW sets get no index larger than those of the FIRST sets that they are made from. -/
theorem lt_size_of_mem_followSets_of_other {other : Grammar} (start : g.isNonTerminal g.start)
    (wellFormed : other.WellFormed) {symbol : Nat} {follow : IndexSet}
    (found : (g.followSets other.firstSets).get? symbol = some follow) {i : Nat} (member : i ∈ follow) :
    i < other.size := by
  refine lt_of_mem_followSets start other.endMarkIndex_lt_size ?_ found i member
  intro source j offered
  obtain ⟨first, entry, inside⟩ := IndexMap.mem_setOf.1 offered
  exact lt_size_of_mem_firstSets wellFormed entry inside

theorem lt_size_of_mem_followSets (wellFormed : g.WellFormed) {symbol : Nat} {follow : IndexSet}
    (found : (g.followSets g.firstSets).get? symbol = some follow) {i : Nat} (member : i ∈ follow) :
    i < g.size :=
  lt_size_of_mem_followSets_of_other wellFormed.start wellFormed found member

/-- FOLLOW is exact for accepted grammars, with the grammar's own FIRST sets. -/
theorem followSets_exact {rules : List Rule} {start epsilon : String} {g : Grammar}
    (accepted : build rules start epsilon = .ok g) :
    (∀ symbol, ((g.followSets g.firstSets).get? symbol).isSome ↔ g.isNonTerminal symbol) ∧
    ∀ symbol follow, (g.followSets g.firstSets).get? symbol = some follow →
      (∀ t, g.IsTerminal t → (t ∈ follow ↔ ∃ origin, g.isNonTerminal origin ∧
        ∃ before after, g.Derives [origin] (before ++ symbol :: t :: after))) ∧
      (endMarkIndex ∈ follow ↔ ∃ before, g.Derives [g.start] (before ++ [symbol])) ∧
      ∀ i ∈ follow, (i = endMarkIndex ∨ g.IsTerminal i) ∧ i ≠ epsilonIndex ∧ ¬ g.isNonTerminal i := by
  have wellFormed := wellFormed_of_build accepted
  refine ⟨isSome_get?_followSets wellFormed.start g.firstSets, ?_⟩
  intro symbol follow found
  refine ⟨?_, ?_, ?_⟩
  · intro t terminal
    rw [mem_followSets_iff wellFormed found]
    exact comesAfter_terminal_iff terminal
  · rw [mem_followSets_iff wellFormed found]
    exact comesAfter_endMark_iff
  · intro i member
    rcases (mem_followSets_iff wellFormed found i).1 member with ⟨terminal, -⟩ | ⟨rfl, -⟩
    · exact ⟨.inr terminal, terminal.ne_epsilon, terminal.not_isNonTerminal⟩
    · refine ⟨.inl rfl, by decide, ?_⟩
      rw [isNonTerminal_iff]
      unfold markerCount endMarkIndex
      omega

/-- In `S → A S a | b` and `A → ε` the terminal `b` comes after `A`, and `A` is never last. -/
theorem followSets_exact_hidden_recursion :
    build [⟨"S", [["A", "S", "a"], ["b"]]⟩, ⟨"A", [["ε"]]⟩] "S" "ε" = .ok hiddenRecursion ∧
      (∃ origin, hiddenRecursion.isNonTerminal origin ∧
        ∃ before after, hiddenRecursion.Derives [origin] (before ++ 3 :: 5 :: after)) ∧
      ¬ ∃ before, hiddenRecursion.Derives [2] (before ++ [3]) := by
  have accepted :
      build [⟨"S", [["A", "S", "a"], ["b"]]⟩, ⟨"A", [["ε"]]⟩] "S" "ε" = .ok hiddenRecursion := rfl
  have found : (hiddenRecursion.followSets hiddenRecursion.firstSets).get? 3 = some (.ofList [5]) := by
    decide +kernel
  obtain ⟨terminals, last, -⟩ := (followSets_exact accepted).2 3 _ found
  refine ⟨accepted, (terminals 5 ⟨"b", rfl⟩).1 (by decide +kernel), ?_⟩
  intro begins
  exact absurd (last.2 begins) (by decide +kernel)

end Lookahead.Grammar
