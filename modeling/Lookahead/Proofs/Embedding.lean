import Lookahead.Proofs.FollowSets.Exact

/-!
Maps between the symbols of two grammars. Where the productions of one grammar are carried to
productions of the other, its derivations are carried along, and so are its lookahead sets.
-/

namespace Lookahead.Grammar

/-- The map is asked to behave on some symbols only, which their productions do not leave. -/
structure Carries (g g' : Grammar) (inside : Nat → Prop) (index : Nat → Nat) : Prop where
  epsilon : index epsilonIndex = epsilonIndex
  shown : ∀ i, inside i → i ≠ epsilonIndex → index i ≠ epsilonIndex
  terminal : ∀ i, inside i → g.IsTerminal i → g'.IsTerminal (index i)
  production : ∀ i right, inside i → g.HasProduction i right →
    g'.HasProduction (index i) (right.map index)
  closed : ∀ i right, inside i → g.HasProduction i right → ∀ symbol ∈ right, inside symbol

section Derivations

variable {g g' : Grammar} {inside : Nat → Prop} {index : Nat → Nat}

theorem Carries.visible_map (carries : g.Carries g' inside index) {sequence : List Nat}
    (within : ∀ i ∈ sequence, inside i) :
    visible (sequence.map index) = (visible sequence).map index := by
  unfold visible
  rw [List.filter_map]
  congr 1
  apply List.filter_congr
  intro i member
  by_cases hidden : i = epsilonIndex
  · simp [hidden, carries.epsilon]
  · have shown := carries.shown i (within i member) hidden
    rw [Function.comp_apply, bne_iff_ne.2 shown, bne_iff_ne.2 hidden]

theorem Carries.rewrites (carries : g.Carries g' inside index) {form result : List Nat}
    (within : ∀ i ∈ form, inside i) (step : g.Rewrites form result) :
    g'.Rewrites (form.map index) (result.map index) ∧ ∀ i ∈ result, inside i := by
  obtain ⟨before, symbol, right, after, rfl, has, rfl⟩ := step.exists_parts
  simp only [List.forall_mem_append, List.forall_mem_cons] at within
  obtain ⟨first, here, last⟩ := within
  have closed := carries.closed symbol right here has
  constructor
  · have expanded := Rewrites.expand (before.map index) (after.map index)
      (carries.production symbol right here has)
    rw [carries.visible_map closed] at expanded
    simpa using expanded
  · simp only [List.forall_mem_append]
    exact ⟨⟨first, fun i member => closed i (List.mem_of_mem_filter member)⟩, last⟩

theorem Carries.derives (carries : g.Carries g' inside index) {form result : List Nat}
    (within : ∀ i ∈ form, inside i) (derived : g.Derives form result) :
    g'.Derives (form.map index) (result.map index) ∧ ∀ i ∈ result, inside i := by
  induction derived with
  | refl => exact ⟨.refl, within⟩
  | tail _ step ih =>
    obtain ⟨carried, kept⟩ := ih
    obtain ⟨next, still⟩ := carries.rewrites kept step
    exact ⟨carried.tail next, still⟩

theorem Carries.leads (carries : g.Carries g' inside index) {sequence : List Nat}
    (within : ∀ i ∈ sequence, inside i) {i : Nat} (leads : g.Leads sequence i) :
    g'.Leads (sequence.map index) (index i) := by
  have shown : ∀ i ∈ visible sequence, inside i :=
    fun i member => within i (List.mem_of_mem_filter member)
  rcases leads with ⟨rfl, vanishes⟩ | ⟨terminal, rest, derived⟩
  · refine .inl ⟨carries.epsilon, ?_⟩
    rw [Vanishes, carries.visible_map within]
    exact (carries.derives shown vanishes).1
  · obtain ⟨carried, kept⟩ := carries.derives shown derived
    refine .inr ⟨carries.terminal i (kept i List.mem_cons_self) terminal, rest.map index, ?_⟩
    rw [carries.visible_map within]
    exact carried

/-- What a derivation puts after a symbol comes after its image. -/
theorem Carries.comesAfter (carries : g.Carries g' inside index) (all : ∀ i, inside i)
    (endMark : index endMarkIndex = endMarkIndex) (start : index g.start = g'.start) {symbol i : Nat}
    (comes : g.ComesAfter symbol i) : g'.ComesAfter (index symbol) (index i) := by
  rcases comes with ⟨terminal, origin, -, before, after, derived⟩ | ⟨rfl, before, derived⟩
  · obtain ⟨carried, -⟩ := carries.derives (fun i _ => all i) derived
    rw [List.map_append] at carried
    have nonTerminal : g'.isNonTerminal (index origin) := by
      rcases derived.singleton_cases with short | ⟨right, has, -⟩
      · have length := congrArg List.length short
        simp only [List.length_append, List.length_cons, List.length_nil] at length
        omega
      · exact (carries.production origin right (all origin) has).isNonTerminal
    exact .inl ⟨carries.terminal i (all i) terminal, index origin, nonTerminal, before.map index,
      after.map index, carried⟩
  · obtain ⟨carried, -⟩ := carries.derives (fun i _ => all i) derived
    rw [List.map_append, List.map_singleton, start] at carried
    exact .inr ⟨endMark, before.map index, carried⟩

end Derivations

section Sets

variable {g g' : Grammar} {inside : Nat → Prop} {index : Nat → Nat}

theorem Carries.firstSets (carries : g.Carries g' inside index) (wellFormed : g.WellFormed)
    (wellFormed' : g'.WellFormed) {symbol : Nat} (within : inside symbol) {first first' : IndexSet}
    (found : g.firstSets.get? symbol = some first)
    (found' : g'.firstSets.get? (index symbol) = some first') {i : Nat} (member : i ∈ first) :
    index i ∈ first' := by
  rw [FirstSets.eq_ofSequence_of_get? found, mem_ofSequence_firstSets wellFormed] at member
  rw [FirstSets.eq_ofSequence_of_get? found', mem_ofSequence_firstSets wellFormed']
  exact carries.leads (by simpa using within) member

theorem Carries.followSets (carries : g.Carries g' inside index) (wellFormed : g.WellFormed)
    (wellFormed' : g'.WellFormed) (all : ∀ i, inside i) (endMark : index endMarkIndex = endMarkIndex)
    (start : index g.start = g'.start) {symbol : Nat} {follow follow' : IndexSet}
    (found : (g.followSets g.firstSets).get? symbol = some follow)
    (found' : (g'.followSets g'.firstSets).get? (index symbol) = some follow') {i : Nat}
    (member : i ∈ follow) : index i ∈ follow' := by
  rw [mem_followSets_iff wellFormed found] at member
  rw [mem_followSets_iff wellFormed' found']
  exact carries.comesAfter all endMark start member

end Sets

end Lookahead.Grammar
