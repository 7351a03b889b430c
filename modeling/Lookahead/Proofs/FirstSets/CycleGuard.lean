import Lookahead.Proofs.FirstSets.Refinement

/-!
The guard against cycles and left recursion. A log in which the guard does not occur shows that no
nonterminal is left-recursive and that recursion alone has found all members, so that refinement has
nothing to add.
-/

namespace Lookahead.Grammar

variable {g : Grammar} {s : Evaluation}

theorem Ready.log_refine (wellFormed : g.WellFormed) (ready : g.Ready s) :
    (g.refine s).log = s.log := by
  have both : g.Ready (g.refine s) ∧ (g.refine s).log = s.log := by
    refine foldl_keeps (motive := fun t => g.Ready t ∧ t.log = s.log) ?_ ⟨ready, rfl⟩
    intro t n member given
    obtain ⟨readyT, same⟩ := given
    obtain ⟨added, refined, -⟩ := refineSymbol_eq wellFormed readyT.primed member
    refine ⟨readyT.refineSymbol wellFormed member, ?_⟩
    rw [refined]
    exact same
  exact both.2

theorem Ready.log_settle (wellFormed : g.WellFormed) (ready : g.Ready s) :
    (g.settle s).result.log = s.log := by
  have kept (t : Evaluation) (both : g.Ready t ∧ t.log = s.log) :
      g.Ready (g.refine t) ∧ (g.refine t).log = s.log :=
    ⟨both.1.refine wellFormed, (both.1.log_refine wellFormed).trans both.2⟩
  have both : g.Ready (g.settle s).result ∧ (g.settle s).result.log = s.log :=
    Saturation.keeps (motive := fun t => g.Ready t ∧ t.log = s.log) kept ⟨ready, rfl⟩
  exact both.2

theorem firstLog_eq (wellFormed : g.WellFormed) : g.firstLog = g.evaluate.log.reverse ++
    [.settled (g.settle g.evaluate).passes (g.settle g.evaluate).result.cache.size] := by
  rw [← (ready_evaluate wellFormed).log_settle wellFormed, ← List.reverse_cons]
  rfl

theorem reentered_mem_firstLog (wellFormed : g.WellFormed) (symbol : Nat) :
    Event.reentered symbol ∈ g.firstLog ↔ Event.reentered symbol ∈ g.evaluate.log := by
  simp [firstLog_eq wellFormed]

theorem Ready.size_refine_le (wellFormed : g.WellFormed) (ready : g.Ready s) (quiet : s.Quiet) :
    (g.refine s).size ≤ s.size := by
  apply IndexMap.memberCount_le
  intro i j inside
  have refined := ready.refine wellFormed
  obtain ⟨first, found, -⟩ := IndexMap.mem_setOf.1 inside
  have usable := (refined.known i first found).1
  -- as long as the state is quiet, what is known of a symbol is complete already
  have answers := (ready.known i _ (ready.primed.get?_eq usable)).2
  exact answers.complete quiet j (refined.leads_of_mem i j inside)

theorem Ready.not_leftRecursive (ready : g.Ready s) (quiet : s.Quiet) (symbol : Nat) :
    ¬ g.LeftRecursive symbol := by
  intro recursive
  have usable : g.Usable symbol := .inr (.inl recursive.isNonTerminal)
  have answers := (ready.known symbol _ (ready.primed.get?_eq usable)).2
  have first : g.Leftmost [symbol] symbol := leftmost_cons.2 (.inl rfl)
  exact (answers.grounded quiet symbol first).not_leftRecursive recursive

theorem Ready.passes_settle (wellFormed : g.WellFormed) (ready : g.Ready s) (quiet : s.Quiet) :
    (g.settle s).passes = 1 := by
  have small := ready.size_refine_le wellFormed quiet
  rw [settle, Saturation.stops (Nat.not_lt.2 small)]

/-- The guard against cycles fires iff the grammar is left-recursive, for left-recursive symbols only,
and as long as it does not fire one refinement pass is enough. -/
theorem cycleGuard_exact {rules : List Rule} {start epsilon : String} {g : Grammar}
    (accepted : build rules start epsilon = .ok g) :
    ((∃ symbol, Event.reentered symbol ∈ g.firstLog) ↔
      ∃ symbol, g.isNonTerminal symbol ∧ g.LeftRecursive symbol) ∧
    (∀ symbol, Event.reentered symbol ∈ g.firstLog → g.LeftRecursive symbol) ∧
    ((∀ symbol, Event.reentered symbol ∉ g.firstLog) →
      ∃ symbols, g.firstLog.getLast? = some (.settled 1 symbols)) := by
  have wellFormed := wellFormed_of_build accepted
  have ready := ready_evaluate wellFormed
  simp only [reentered_mem_firstLog wellFormed]
  refine ⟨?_, ready.recursive, ?_⟩
  · constructor
    · intro given
      obtain ⟨symbol, member⟩ := given
      have recursive := ready.recursive symbol member
      exact ⟨symbol, recursive.isNonTerminal, recursive⟩
    · intro given
      obtain ⟨symbol, -, recursive⟩ := given
      by_contra none
      have quiet : g.evaluate.Quiet := fun other member => none ⟨other, member⟩
      exact ready.not_leftRecursive quiet symbol recursive
  · intro quiet
    refine ⟨(g.settle g.evaluate).result.cache.size, ?_⟩
    rw [firstLog_eq wellFormed, List.getLast?_concat, ready.passes_settle wellFormed quiet]

/-- The guard fires for `S` in `S → A S a | b` with `A → ε`, and it does not in `S → a S | b`. -/
theorem cycleGuard_exact_hidden_recursion :
    build [⟨"S", [["A", "S", "a"], ["b"]]⟩, ⟨"A", [["ε"]]⟩] "S" "ε" = .ok hiddenRecursion ∧
      hiddenRecursion.LeftRecursive 2 ∧
      ∃ g, build [⟨"S", [["a", "S"], ["b"]]⟩] "S" "ε" = .ok g ∧
        ¬ ∃ symbol, g.isNonTerminal symbol ∧ g.LeftRecursive symbol := by
  have accepted :
      build [⟨"S", [["A", "S", "a"], ["b"]]⟩, ⟨"A", [["ε"]]⟩] "S" "ε" = .ok hiddenRecursion := rfl
  have other : build [⟨"S", [["a", "S"], ["b"]]⟩] "S" "ε" =
      .ok ⟨"ε", [⟨"S", [[3, 2], [4]]⟩], ["a", "b"], 2⟩ := rfl
  refine ⟨accepted, (cycleGuard_exact accepted).2.1 2 (by decide +kernel), _, other, ?_⟩
  rw [← (cycleGuard_exact other).1]
  intro given
  obtain ⟨symbol, member⟩ := given
  have log : firstLog ⟨"ε", [⟨"S", [[3, 2], [4]]⟩], ["a", "b"], 2⟩ = [.settled 1 4] := by
    decide +kernel
  simp [log] at member

end Lookahead.Grammar
