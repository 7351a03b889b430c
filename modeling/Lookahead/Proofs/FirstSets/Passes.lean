import Lookahead.Proofs.FirstSets.CycleGuard
import Lookahead.Proofs.Spreading

/-!
How many passes refinement takes, whatever is missing when it begins. Nullability spreads on its own. Once it
has arrived everywhere, it is settled how far each production is looked at, and every terminal spreads on its
own too. These two stages take no more passes each than there are nonterminals.
-/

namespace Lookahead

theorem FirstSets.mem_ofSequence_congr {first first' : FirstSets} {i : Nat}
    (nullable : ∀ symbol, epsilonIndex ∈ first.get symbol ↔ epsilonIndex ∈ first'.get symbol)
    (same : ∀ symbol, i ∈ first.get symbol ↔ i ∈ first'.get symbol) (sequence : List Nat) :
    i ∈ first.ofSequence sequence ↔ i ∈ first'.ofSequence sequence := by
  induction sequence with
  | nil => rw [ofSequence_nil, ofSequence_nil]
  | cons symbol rest ih => rw [mem_ofSequence_cons, mem_ofSequence_cons, nullable, same, ih]

namespace Grammar

variable {g : Grammar} {s t : Evaluation} {i : Nat}

/-- Two states that know the same about nullability and about one index. -/
structure Agree (g : Grammar) (i : Nat) (s t : Evaluation) : Prop where
  left : g.Primed s
  right : g.Primed t
  nullable : s.cache.holders epsilonIndex = t.cache.holders epsilonIndex
  same : s.cache.holders i = t.cache.holders i

namespace Agree

private theorem holders_refineSymbol (wellFormed : g.WellFormed) (left : g.Primed s) (right : g.Primed t)
    (nullable : s.cache.holders epsilonIndex = t.cache.holders epsilonIndex)
    (same : s.cache.holders i = t.cache.holders i) {n : NonTerminal × Nat}
    (member : n ∈ g.indexedNonTerminals) :
    (g.refineSymbol s n).cache.holders i = (g.refineSymbol t n).cache.holders i := by
  have before (symbol : Nat) : i ∈ s.cache.setOf symbol ↔ i ∈ t.cache.setOf symbol :=
    Set.ext_iff.1 same symbol
  have sequences : ∀ sequence, i ∈ s.firstSets.ofSequence sequence ↔ i ∈ t.firstSets.ofSequence sequence :=
    FirstSets.mem_ofSequence_congr (Set.ext_iff.1 nullable) before
  ext symbol
  change i ∈ (g.refineSymbol s n).cache.setOf symbol ↔ i ∈ (g.refineSymbol t n).cache.setOf symbol
  rw [mem_refineSymbol_iff wellFormed left member, mem_refineSymbol_iff wellFormed right member]
  simp only [before, sequences]

theorem refineSymbol (wellFormed : g.WellFormed) (agree : g.Agree i s t) {n : NonTerminal × Nat}
    (member : n ∈ g.indexedNonTerminals) : g.Agree i (g.refineSymbol s n) (g.refineSymbol t n) where
  left := agree.left.refineSymbol wellFormed member
  right := agree.right.refineSymbol wellFormed member
  nullable := holders_refineSymbol wellFormed agree.left agree.right agree.nullable agree.nullable member
  same := holders_refineSymbol wellFormed agree.left agree.right agree.nullable agree.same member

theorem refine (wellFormed : g.WellFormed) (agree : g.Agree i s t) :
    g.Agree i (g.refine s) (g.refine t) :=
  List.foldl_rel (r := g.Agree i) agree fun _ member _ _ agree => agree.refineSymbol wellFormed member

end Agree

theorem Primed.holders_refine (wellFormed : g.WellFormed) (primed : g.Primed s) (i : Nat) :
    s.cache.holders i ⊆ (g.refine s).cache.holders i ∧
      (g.refine s).cache.holders i ⊆ s.cache.holders i ∪ g.nonTerminalIndices := by
  have all : g.Primed (g.refine s) ∧ s.cache.holders i ⊆ (g.refine s).cache.holders i ∧
      (g.refine s).cache.holders i ⊆ s.cache.holders i ∪ g.nonTerminalIndices := by
    refine foldl_keeps (motive := fun t : Evaluation => g.Primed t ∧ s.cache.holders i ⊆ t.cache.holders i ∧
      t.cache.holders i ⊆ s.cache.holders i ∪ g.nonTerminalIndices) ?_
      ⟨primed, subset_rfl, Set.subset_union_left⟩
    intro t n member given
    obtain ⟨primedT, grown, bounded⟩ := given
    refine ⟨primedT.refineSymbol wellFormed member, ?_, ?_⟩
    · intro symbol inside
      exact (mem_refineSymbol_iff wellFormed primedT member).2 (.inl (grown inside))
    · intro symbol inside
      rcases (mem_refineSymbol_iff wellFormed primedT member).1 inside with before | ⟨rfl, right, has, -⟩
      · exact bounded before
      · exact .inr (mem_nonTerminalIndices.2 has.isNonTerminal)
  exact all.2

theorem spreads_nullable (wellFormed : g.WellFormed) : Spreads g.refine g.Primed
    (fun s => s.cache.holders epsilonIndex) g.nonTerminalIndices where
  kept _ primed := primed.refine wellFormed
  grows _ primed := (primed.holders_refine wellFormed epsilonIndex).1
  within _ primed := (primed.holders_refine wellFormed epsilonIndex).2
  determined _ _ left right same :=
    (Agree.refine wellFormed (i := epsilonIndex) ⟨left, right, same, same⟩).same

/-- The first stage is over: another pass finds no more nullable symbols than these. -/
structure NullableKnown (g : Grammar) (nullable : Set Nat) (s : Evaluation) : Prop extends g.Primed s where
  now : s.cache.holders epsilonIndex = nullable
  next : (g.refine s).cache.holders epsilonIndex = nullable

theorem spreads_index (wellFormed : g.WellFormed) (nullable : Set Nat) (i : Nat) :
    Spreads g.refine (g.NullableKnown nullable) (fun s => s.cache.holders i) g.nonTerminalIndices where
  kept s known := by
    have primed := known.toPrimed.refine wellFormed
    have again := (spreads_nullable wellFormed).determined _ _ primed known.toPrimed
      (known.next.trans known.now.symm)
    exact ⟨primed, known.next, again.trans known.next⟩
  grows _ known := (known.toPrimed.holders_refine wellFormed i).1
  within _ known := (known.toPrimed.holders_refine wellFormed i).2
  determined _ _ left right same :=
    (Agree.refine wellFormed ⟨left.toPrimed, right.toPrimed, left.now.trans right.now.symm, same⟩).same

theorem Primed.size_refine_iterate (wellFormed : g.WellFormed) (primed : g.Primed s) :
    (g.refine^[2 * g.nonTerminals.length + 1] s).size = (g.refine^[2 * g.nonTerminals.length] s).size := by
  have few := Nat.le_of_eq g.card_nonTerminalIndices
  have stage := spreads_nullable wellFormed
  have settled := stage.holders_iterate_succ primed few
  rw [Function.iterate_succ_apply'] at settled
  have known : g.NullableKnown _ (g.refine^[g.nonTerminals.length] s) :=
    ⟨stage.motive_iterate primed _, rfl, settled⟩
  refine IndexMap.memberCount_congr fun i => ?_
  rw [Nat.two_mul, Nat.add_right_comm, Function.iterate_add_apply g.refine (_ + 1),
    Function.iterate_add_apply g.refine g.nonTerminals.length g.nonTerminals.length]
  exact (spreads_index wellFormed _ i).holders_iterate_succ known few

theorem Primed.exists_linear_refine (wellFormed : g.WellFormed) (primed : g.Primed s) :
    ∃ n ≤ 2 * g.nonTerminals.length, g.settle s = ⟨n + 1, g.refine^[n] s⟩ ∧
      g.refine (g.refine^[n] s) = g.refine^[n] s ∧
      ∀ k < n, (g.refine^[k] s).size < (g.refine^[k + 1] s).size := by
  obtain ⟨n, run, unchanged, grows⟩ := primed.exists_refine_iterate wellFormed
  refine ⟨n, ?_, run, unchanged, grows⟩
  by_contra beyond
  have larger := grows _ (Nat.lt_of_not_le beyond)
  exact absurd (primed.size_refine_iterate wellFormed) (Nat.ne_of_gt larger)

/-- Refinement is over after two passes for each nonterminal, and one more pass finds that nothing is missing.
That does not depend on recursion: the sets that it starts from may lack any members. -/
theorem refinement_linear {rules : List Rule} {start epsilon : String} {g : Grammar}
    (accepted : build rules start epsilon = .ok g) :
    (∃ passes symbols, g.firstLog.getLast? = some (.settled passes symbols) ∧
      1 ≤ passes ∧ passes ≤ 2 * g.nonTerminals.length + 1) ∧
    g.Primed g.evaluate ∧
    ∀ s, g.Primed s → ∃ n ≤ 2 * g.nonTerminals.length, g.settle s = ⟨n + 1, g.refine^[n] s⟩ ∧
      g.refine (g.refine^[n] s) = g.refine^[n] s ∧
      ∀ k < n, (g.refine^[k] s).size < (g.refine^[k + 1] s).size := by
  have wellFormed := wellFormed_of_build accepted
  have primed := (ready_evaluate wellFormed).primed
  refine ⟨?_, primed, fun _ primed => primed.exists_linear_refine wellFormed⟩
  obtain ⟨n, few, run, -⟩ := primed.exists_linear_refine wellFormed
  have last : g.firstLog.getLast? = some (.settled (n + 1) (g.refine^[n] g.evaluate).cache.size) := by
    rw [firstLog_eq wellFormed, List.getLast?_concat, run]
  exact ⟨n + 1, _, last, Nat.le_add_left 1 n, Nat.succ_le_succ few⟩

/-- In `A → ε | B a`, `B → C` and `C → A` epsilon has to go round the cycle against the order of the rules,
and `a` has to go round after it. This takes five passes, of the seven that three nonterminals allow. -/
theorem refinement_linear_two_rounds :
    ∃ g, build [⟨"A", [["ε"], ["B", "a"]]⟩, ⟨"B", [["C"]]⟩, ⟨"C", [["A"]]⟩] "A" "ε" = .ok g ∧
      g.nonTerminals.length = 3 ∧ g.firstLog.getLast? = some (.settled 5 5) ∧
      ∃ n ≤ 6, g.settle g.evaluate = ⟨n + 1, g.refine^[n] g.evaluate⟩ := by
  have accepted : build [⟨"A", [["ε"], ["B", "a"]]⟩, ⟨"B", [["C"]]⟩, ⟨"C", [["A"]]⟩] "A" "ε" =
      .ok ⟨"ε", [⟨"A", [[0], [3, 5]]⟩, ⟨"B", [[4]]⟩, ⟨"C", [[2]]⟩], ["a"], 2⟩ := rfl
  obtain ⟨-, primed, linear⟩ := refinement_linear accepted
  obtain ⟨n, few, run, -⟩ := linear _ primed
  exact ⟨_, accepted, rfl, by decide +kernel, n, few, run⟩

end Grammar

end Lookahead
