import Lookahead.Proofs.FirstSets.Request
import Lookahead.Proofs.MemberCount
import Lookahead.Proofs.Saturation

/-!
Both phases of the computation of FIRST sets. After the first one all symbols have a set, so the
second one only reads the cache, and it ends with sets that are closed under the productions.
-/

namespace Lookahead

def Evaluation.firstSets (s : Evaluation) : FirstSets := ⟨s.cache⟩

namespace Grammar

variable {g : Grammar}

/-- Evaluated as far as recursion goes: every symbol has a set. -/
structure Ready (g : Grammar) (s : Evaluation) : Prop extends g.Valid s where
  cached : ∀ symbol, g.Usable symbol → (s.cache.get? symbol).isSome

theorem request_of_cached {active : List Nat} {symbol : Nat} {s : Evaluation}
    (known : (s.cache.get? symbol).isSome) :
    g.request active symbol s = (s.firstSets.get symbol, s) := by
  obtain ⟨first, found⟩ := Option.isSome_iff_exists.1 known
  have same : s.firstSets.get symbol = first := by
    change (s.cache.get? symbol).getD ∅ = first
    rw [found, Option.getD_some]
  rw [request, found, same]

theorem firstOfSequence_of_cached {active sequence : List Nat} {s : Evaluation}
    (known : ∀ symbol ∈ sequence, (s.cache.get? symbol).isSome) :
    firstOfSequence (g.request active) sequence s = (s.firstSets.ofSequence sequence, s) := by
  induction sequence with
  | nil => rfl
  | cons symbol rest ih =>
    have later := ih fun other member => known other (List.mem_cons_of_mem _ member)
    rw [firstOfSequence_cons, request_of_cached (known symbol List.mem_cons_self), later,
      FirstSets.ofSequence_cons]
    split <;> rfl

theorem firstOfAlternatives_of_cached (g : Grammar) (active : List Nat)
    {alternatives : List (List Nat)} {s : Evaluation}
    (known : ∀ sequence ∈ alternatives, ∀ symbol ∈ sequence, (s.cache.get? symbol).isSome) :
    (firstOfAlternatives (g.request active) alternatives s).2 = s ∧
      ∀ i, i ∈ (firstOfAlternatives (g.request active) alternatives s).1 ↔
        ∃ sequence ∈ alternatives, i ∈ s.firstSets.ofSequence sequence := by
  induction alternatives with
  | nil => simp [firstOfAlternatives_nil]
  | cons sequence rest ih =>
    obtain ⟨unchanged, members⟩ := ih fun other listed => known other (List.mem_cons_of_mem _ listed)
    rw [firstOfAlternatives_cons, firstOfSequence_of_cached (known sequence List.mem_cons_self)]
    refine ⟨unchanged, ?_⟩
    intro i
    simp [members]

theorem usable_iff_mem (g : Grammar) (symbol : Nat) : g.Usable symbol ↔
    symbol ∈ epsilonIndex :: g.indexedNonTerminals.map (·.2) ++ g.indexedTerminals.map (·.2) := by
  simp [Usable, isNonTerminal_iff_mem, isTerminal_iff_mem]

private theorem extends_foldl_request (g : Grammar) (symbols : List Nat) (s : Evaluation) :
    s.Extends (symbols.foldl (fun s symbol => (g.request [] symbol s).2) s) :=
  foldl_keeps (motive := s.Extends)
    (fun middle symbol _ grown => grown.trans (extends_request g [] symbol middle)) (.refl s)

private theorem isSome_foldl_request (g : Grammar) {symbols : List Nat} {symbol : Nat}
    (member : symbol ∈ symbols) (s : Evaluation) :
    ((symbols.foldl (fun s symbol => (g.request [] symbol s).2) s).cache.get? symbol).isSome := by
  induction symbols generalizing s with
  | nil => simp at member
  | cons head rest ih =>
    rw [List.foldl_cons]
    rcases List.mem_cons.1 member with rfl | inside
    · apply (extends_foldl_request g rest _).cached
      exact isSome_get?_request g List.not_mem_nil s
    · exact ih inside _

theorem ready_evaluate (wellFormed : g.WellFormed) : g.Ready g.evaluate := by
  unfold evaluate
  constructor
  · refine foldl_keeps (motive := g.Valid) ?_ valid_initial
    intro s symbol member valid
    have usable := (usable_iff_mem g symbol).2 member
    exact (answers_request wellFormed [] symbol s usable (by simp) valid).1
  · intro symbol usable
    exact isSome_foldl_request g ((usable_iff_mem g symbol).1 usable) {}

/-- Fit for refinement: every symbol has a set, and no set has too much. Members may be missing. -/
structure Primed (g : Grammar) (s : Evaluation) : Prop where
  cached : ∀ symbol, (s.cache.get? symbol).isSome ↔ g.Usable symbol
  sound : ∀ symbol, ∀ i ∈ s.firstSets.get symbol, g.Leads [symbol] i

theorem Valid.leads_of_mem {s : Evaluation} (valid : g.Valid s) :
    ∀ symbol, ∀ i ∈ s.firstSets.get symbol, g.Leads [symbol] i := by
  intro symbol i member
  obtain ⟨first, found, inside⟩ := IndexMap.mem_setOf.1 member
  exact (valid.known symbol first found).2.sound i inside

theorem Ready.primed {s : Evaluation} (ready : g.Ready s) : g.Primed s := by
  refine ⟨?_, ready.leads_of_mem⟩
  intro symbol
  constructor
  · intro known
    obtain ⟨first, found⟩ := Option.isSome_iff_exists.1 known
    exact (ready.known symbol first found).1
  · exact ready.cached symbol

theorem usable_of_mem {n : NonTerminal × Nat} (member : n ∈ g.indexedNonTerminals) :
    g.Usable n.2 :=
  .inr (.inl ((isNonTerminal_iff_mem g n.2).2 ⟨n.1, member⟩))

theorem refineSymbol_eq (wellFormed : g.WellFormed) {s : Evaluation} (primed : g.Primed s)
    {n : NonTerminal × Nat} (member : n ∈ g.indexedNonTerminals) :
    ∃ added, g.refineSymbol s n = s.store n.2 (s.firstSets.get n.2 ∪ added) ∧
      ∀ i, i ∈ added ↔ ∃ right, g.HasProduction n.2 right ∧ i ∈ s.firstSets.ofSequence right := by
  have found := productions?_of_mem member
  have known : ∀ right ∈ n.1.productions, ∀ symbol ∈ right, (s.cache.get? symbol).isSome := by
    intro right listed symbol inside
    exact (primed.cached symbol).2 (wellFormed.usable n.2 right ⟨_, found, listed⟩ symbol inside)
  obtain ⟨unchanged, members⟩ := firstOfAlternatives_of_cached g [] known
  refine ⟨(firstOfAlternatives (g.request []) n.1.productions s).1, ?_, ?_⟩
  · rw [refineSymbol, unchanged]
    rfl
  · intro i
    simp only [members, hasProduction_iff found]

theorem mem_refineSymbol_iff (wellFormed : g.WellFormed) {s : Evaluation} (primed : g.Primed s)
    {n : NonTerminal × Nat} (member : n ∈ g.indexedNonTerminals) {symbol i : Nat} :
    i ∈ (g.refineSymbol s n).cache.setOf symbol ↔ i ∈ s.cache.setOf symbol ∨
      symbol = n.2 ∧ ∃ right, g.HasProduction n.2 right ∧ i ∈ s.firstSets.ofSequence right := by
  obtain ⟨added, same, members⟩ := refineSymbol_eq wellFormed primed member
  rw [same, Evaluation.store, IndexMap.setOf_insert]
  split
  · rename_i here
    rw [IndexSet.mem_union, members, ← here]
    simp only [true_and]
    rfl
  · rename_i elsewhere
    simp only [Ne.symm elsewhere, false_and, or_false]

namespace Primed

variable {s : Evaluation}

theorem get?_eq (primed : g.Primed s) {symbol : Nat} (usable : g.Usable symbol) :
    s.cache.get? symbol = some (s.firstSets.get symbol) := by
  obtain ⟨first, found⟩ := Option.isSome_iff_exists.1 ((primed.cached symbol).2 usable)
  change s.cache.get? symbol = some ((s.cache.get? symbol).getD ∅)
  rw [found, Option.getD_some]

theorem store_get (primed : g.Primed s) {symbol : Nat} (usable : g.Usable symbol) :
    s.store symbol (s.firstSets.get symbol) = s := by
  have same : s.cache.insert symbol (s.firstSets.get symbol) = s.cache := by
    ext i : 1
    rw [IndexMap.get?_insert]
    split
    · rename_i here
      rw [← here, primed.get?_eq usable]
    · rfl
  rw [Evaluation.store, same]

theorem refineSymbol (wellFormed : g.WellFormed) (primed : g.Primed s) {n : NonTerminal × Nat}
    (member : n ∈ g.indexedNonTerminals) : g.Primed (g.refineSymbol s n) := by
  constructor
  · intro symbol
    obtain ⟨added, same, -⟩ := refineSymbol_eq wellFormed primed member
    rw [same, Evaluation.store, IndexMap.get?_insert]
    split
    · rename_i here
      simp [← here, usable_of_mem member]
    · exact primed.cached symbol
  · intro symbol i inside
    rcases (mem_refineSymbol_iff wellFormed primed member).1 inside with before | ⟨rfl, right, has, fresh⟩
    · exact primed.sound symbol i before
    · exact leads_of_production has (FirstSets.leads_of_mem_ofSequence primed.sound fresh)

theorem subset_refineSymbol (wellFormed : g.WellFormed) (primed : g.Primed s) {n : NonTerminal × Nat}
    (member : n ∈ g.indexedNonTerminals) (symbol : Nat) :
    ∀ i ∈ s.cache.setOf symbol, i ∈ (g.refineSymbol s n).cache.setOf symbol :=
  fun _ inside => (mem_refineSymbol_iff wellFormed primed member).2 (.inl inside)

theorem size_le_refineSymbol (wellFormed : g.WellFormed) (primed : g.Primed s)
    {n : NonTerminal × Nat} (member : n ∈ g.indexedNonTerminals) :
    s.size ≤ (g.refineSymbol s n).size :=
  IndexMap.memberCount_le (primed.subset_refineSymbol wellFormed member)

theorem refineSymbol_eq_self (wellFormed : g.WellFormed) (primed : g.Primed s)
    {n : NonTerminal × Nat} (member : n ∈ g.indexedNonTerminals)
    (small : (g.refineSymbol s n).size ≤ s.size) : g.refineSymbol s n = s := by
  have unchanged := IndexMap.setOf_eq_of_memberCount_le
    (primed.subset_refineSymbol wellFormed member) small n.2
  obtain ⟨added, same, -⟩ := refineSymbol_eq wellFormed primed member
  rw [same, Evaluation.store, IndexMap.setOf_insert, if_pos rfl] at unchanged
  rw [same, ← unchanged]
  exact primed.store_get (usable_of_mem member)

theorem refine (wellFormed : g.WellFormed) (primed : g.Primed s) : g.Primed (g.refine s) :=
  foldl_keeps (motive := g.Primed) (fun _ _ member primed => primed.refineSymbol wellFormed member) primed

theorem refine_eq_self (wellFormed : g.WellFormed) (primed : g.Primed s)
    (small : (g.refine s).size ≤ s.size) :
    g.refine s = s ∧ ∀ n ∈ g.indexedNonTerminals, g.refineSymbol s n = s :=
  foldl_eq_self_of_size_le (motive := g.Primed) Evaluation.size
    (fun _ _ member primed => primed.refineSymbol wellFormed member)
    (fun _ _ member primed => primed.size_le_refineSymbol wellFormed member)
    (fun _ _ member primed small => primed.refineSymbol_eq_self wellFormed member small) primed small

theorem size_le (primed : g.Primed s) : s.size ≤ g.size * g.size := by
  have small : ∀ i, ∀ j ∈ s.cache.setOf i, i ∈ Finset.range g.size ∧ j ∈ Finset.range g.size := by
    intro i j inside
    obtain ⟨first, found, -⟩ := IndexMap.mem_setOf.1 inside
    have usable := (primed.cached i).1 (Option.isSome_of_eq_some found)
    refine ⟨Finset.mem_range.2 usable.lt_size, Finset.mem_range.2 (Usable.lt_size ?_)⟩
    exact (primed.sound i j inside).epsilon_or_terminal.imp_right .inr
  simpa [Evaluation.size] using IndexMap.memberCount_le_mul small

/-- Refinement comes to an end before its bound, with the first pass that adds nothing. -/
theorem exists_refine_iterate (wellFormed : g.WellFormed) (primed : g.Primed s) :
    ∃ n, g.settle s = ⟨n + 1, g.refine^[n] s⟩ ∧ g.refine (g.refine^[n] s) = g.refine^[n] s ∧
      ∀ k < n, (g.refine^[k] s).size < (g.refine^[k + 1] s).size := by
  obtain ⟨n, same, reached, still, grows⟩ := Saturation.exists_eq_iterate (motive := g.Primed)
    (fun _ primed => primed.refine wellFormed) (fun _ primed => primed.size_le) primed
  rw [Function.iterate_succ_apply'] at same still
  obtain ⟨unchanged, -⟩ := reached.refine_eq_self wellFormed (Nat.le_of_not_lt still)
  rw [unchanged] at same
  exact ⟨n, same, unchanged, grows⟩

end Primed

theorem Ready.refineSymbol (wellFormed : g.WellFormed) {s : Evaluation} (ready : g.Ready s)
    {n : NonTerminal × Nat} (member : n ∈ g.indexedNonTerminals) :
    g.Ready (g.refineSymbol s n) := by
  obtain ⟨added, same, members⟩ := refineSymbol_eq wellFormed ready.primed member
  have usable := usable_of_mem member
  have old := (ready.known n.2 _ (ready.primed.get?_eq usable)).2
  rw [same]
  refine ⟨ready.toValid.store usable ?_ ?_, ?_⟩
  · refine ⟨?_, ?_, old.grounded⟩
    · intro i inside
      rcases IndexSet.mem_union.1 inside with before | fresh
      · exact old.sound i before
      · obtain ⟨right, has, leads⟩ := (members i).1 fresh
        exact leads_of_production has
          (FirstSets.leads_of_mem_ofSequence ready.toValid.leads_of_mem leads)
    · intro quiet i leads
      exact IndexSet.mem_union.2 (.inl (old.complete quiet i leads))
  · intro other
    exact absurd ((isNonTerminal_iff_mem g n.2).2 ⟨n.1, member⟩) other
  · intro symbol needed
    exact (Evaluation.extends_store s n.2 _).cached symbol (ready.cached symbol needed)

theorem Ready.refine (wellFormed : g.WellFormed) {s : Evaluation} (ready : g.Ready s) :
    g.Ready (g.refine s) :=
  foldl_keeps (motive := g.Ready)
    (fun _ _ member ready => ready.refineSymbol wellFormed member) ready

theorem Ready.closed (wellFormed : g.WellFormed) {s : Evaluation} (ready : g.Ready s)
    (small : (g.refine s).size ≤ s.size) : g.refine s = s ∧ FirstSets.Closed g s.firstSets := by
  obtain ⟨whole, unchanged⟩ := ready.primed.refine_eq_self wellFormed small
  have leaf (symbol : Nat) (usable : g.Usable symbol) (other : ¬ g.isNonTerminal symbol) :
      symbol ∈ s.firstSets.get symbol :=
    ready.leaf symbol _ (ready.primed.get?_eq usable) other
  refine ⟨whole, ?_, ?_, ?_⟩
  · exact leaf epsilonIndex (.inl rfl) (not_isNonTerminal_epsilon g)
  · intro t terminal
    exact leaf t (.inr (.inr terminal)) terminal.not_isNonTerminal
  · intro symbol right has i inside
    obtain ⟨n, member⟩ := (isNonTerminal_iff_mem g symbol).1 has.isNonTerminal
    have grown : i ∈ (g.refineSymbol s (n, symbol)).cache.setOf symbol :=
      (mem_refineSymbol_iff wellFormed ready.primed member).2 (.inr ⟨rfl, right, has, inside⟩)
    rwa [unchanged (n, symbol) member] at grown

/-- Refinement comes to an end before its bound, with sets that are closed. -/
theorem settled_evaluate (wellFormed : g.WellFormed) :
    g.Ready (g.settle g.evaluate).result ∧ FirstSets.Closed g g.firstSets := by
  have kept (s : Evaluation) (ready : g.Ready s) : g.Ready (g.refine s) := ready.refine wellFormed
  obtain ⟨s, ready, still, same⟩ := Saturation.settled (motive := g.Ready) kept
    (fun _ ready => ready.primed.size_le) (ready_evaluate wellFormed)
  obtain ⟨unchanged, closed⟩ := ready.closed wellFormed (Nat.le_of_not_lt still)
  have result : (g.settle g.evaluate).result = s := same.trans unchanged
  have sets : g.firstSets = (g.settle g.evaluate).result.firstSets := rfl
  rw [sets, result]
  exact ⟨ready, closed⟩

end Grammar

end Lookahead
