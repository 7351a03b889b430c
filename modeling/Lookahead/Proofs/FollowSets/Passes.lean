import Lookahead.Proofs.FollowSets.LeastSolution
import Lookahead.Proofs.Spreading

/-!
How many passes FOLLOW sets take. A pass carries every index on its own: which nonterminals have it afterwards
depends on those that had it before, so no index needs more passes than there are nonterminals.
-/

namespace Lookahead

theorem Growth.holders_extendAt {first : FirstSets} {s t : Growth} {i : Nat}
    (same : s.sets.holders i = t.sets.holders i) (o : Grammar.Occurrence) :
    (s.extendAt first o).sets.holders i = (t.extendAt first o).sets.holders i := by
  have agree (symbol : Nat) : i ∈ s.get symbol ↔ i ∈ t.get symbol := Set.ext_iff.1 same symbol
  ext symbol
  change i ∈ (s.extendAt first o).get symbol ↔ i ∈ (t.extendAt first o).get symbol
  simp only [extendAt, mem_get_extend, mem_addition, agree]

namespace Grammar

variable {g : Grammar} {first : FirstSets}

theorem holders_subset_followPass (s : Growth) (i : Nat) :
    s.sets.holders i ⊆ (g.followPass first s).sets.holders i := by
  rw [followPass_eq_foldl]
  refine foldl_keeps (motive := fun t : Growth => s.sets.holders i ⊆ t.sets.holders i) ?_ subset_rfl
  intro t o _ inside symbol member
  exact Growth.mem_get_extend.2 (.inl (inside member))

theorem spreads_followPass (g : Grammar) (first : FirstSets) (i : Nat) :
    Spreads (g.followPass first) (g.Approaches first) (fun s => s.sets.holders i)
      g.nonTerminalIndices where
  kept _ approaches := approaches.followPass
  grows s _ := holders_subset_followPass s i
  within s approaches symbol member := by
    obtain ⟨set, found, -⟩ := IndexMap.mem_setOf.1 member
    have known := (approaches.followPass.keyed symbol).1 (Option.isSome_of_eq_some found)
    exact .inr (mem_nonTerminalIndices.2 known)
  determined s t _ _ same := by
    rw [followPass_eq_foldl, followPass_eq_foldl]
    exact List.foldl_rel (r := fun s t : Growth => s.sets.holders i = t.sets.holders i) same
      fun o _ _ _ same => Growth.holders_extendAt same o

theorem size_followPass_iterate (start : g.isNonTerminal g.start) (first : FirstSets) :
    ((g.followPass first)^[g.nonTerminals.length + 1] g.initialGrowth).size =
      ((g.followPass first)^[g.nonTerminals.length] g.initialGrowth).size := by
  refine IndexMap.memberCount_congr fun i => ?_
  exact (spreads_followPass g first i).holders_iterate_succ (approaches_initialGrowth start)
    (Nat.le_of_eq g.card_nonTerminalIndices)

theorem getLast?_followLog (g : Grammar) (first : FirstSets) :
    (g.followLog first).getLast? = some (.saturated (g.saturateFollow first).passes) := by
  rw [followLog, List.getLast?_reverse, List.head?_cons]

theorem getLast?_log (g : Grammar) :
    g.log.getLast? = some (.saturated (g.saturateFollow g.firstSets).passes) := by
  rw [log, List.getLast?_append, ← firstSets, getLast?_followLog, Option.some_or]

theorem exists_linear_followPass (start : g.isNonTerminal g.start) (first : FirstSets) :
    ∃ n ≤ g.nonTerminals.length,
      g.saturateFollow first = ⟨n + 1, (g.followPass first)^[n] g.initialGrowth⟩ ∧
      g.followPass first ((g.followPass first)^[n] g.initialGrowth) =
        (g.followPass first)^[n] g.initialGrowth ∧
      ∀ k < n, ((g.followPass first)^[k] g.initialGrowth).size <
        ((g.followPass first)^[k + 1] g.initialGrowth).size := by
  obtain ⟨n, passes, result, -, -, unchanged, grows⟩ := exists_followPass_iterate start first
  refine ⟨n, ?_, ?_, result ▸ unchanged, grows⟩
  · by_contra beyond
    have larger := grows g.nonTerminals.length (Nat.lt_of_not_le beyond)
    exact absurd (size_followPass_iterate start first) (Nat.ne_of_gt larger)
  · rw [← passes, ← result]

theorem followPass_result (start : g.isNonTerminal g.start) (first : FirstSets) :
    g.followPass first (g.saturateFollow first).result = (g.saturateFollow first).result := by
  obtain ⟨n, -, run, unchanged, -⟩ := exists_linear_followPass start first
  rw [run]
  exact unchanged

/-- FOLLOW sets are complete after as many passes as there are nonterminals, for any FIRST sets, and one
more pass finds that nothing is missing. -/
theorem followPasses_linear {rules : List Rule} {start epsilon : String} {g : Grammar}
    (accepted : build rules start epsilon = .ok g) :
    (∀ first : FirstSets, ∃ n ≤ g.nonTerminals.length,
      g.saturateFollow first = ⟨n + 1, (g.followPass first)^[n] g.initialGrowth⟩ ∧
      g.followPass first ((g.followPass first)^[n] g.initialGrowth) =
        (g.followPass first)^[n] g.initialGrowth ∧
      (∀ k < n, ((g.followPass first)^[k] g.initialGrowth).size <
        ((g.followPass first)^[k + 1] g.initialGrowth).size) ∧
      (g.followLog first).getLast? = some (.saturated (n + 1))) ∧
    ∃ passes ≤ g.nonTerminals.length + 1, g.log.getLast? = some (.saturated passes) := by
  have nonTerminal := (wellFormed_of_build accepted).start
  refine ⟨?_, ?_⟩
  · intro first
    obtain ⟨n, few, run, unchanged, grows⟩ := exists_linear_followPass nonTerminal first
    exact ⟨n, few, run, unchanged, grows, by rw [getLast?_followLog, run]⟩
  · obtain ⟨n, few, run, -⟩ := exists_linear_followPass nonTerminal g.firstSets
    exact ⟨n + 1, Nat.succ_le_succ few, by rw [getLast?_log, run]⟩

/-- In `A → a`, `B → A` and `S → B | S t` the rules stand against the way of `t`, which comes after `S` first and
after `A` last. All the passes that three nonterminals allow are needed. -/
theorem followPasses_linear_against_order :
    ∃ g, build [⟨"A", [["a"]]⟩, ⟨"B", [["A"]]⟩, ⟨"S", [["B"], ["S", "t"]]⟩] "S" "ε" = .ok g ∧
      g.nonTerminals.length = 3 ∧ g.log.getLast? = some (.saturated 4) ∧
      ∃ passes ≤ 4, g.log.getLast? = some (.saturated passes) := by
  have accepted : build [⟨"A", [["a"]]⟩, ⟨"B", [["A"]]⟩, ⟨"S", [["B"], ["S", "t"]]⟩] "S" "ε" =
      .ok ⟨"ε", [⟨"A", [[5]]⟩, ⟨"B", [[2]]⟩, ⟨"S", [[3], [4, 6]]⟩], ["a", "t"], 4⟩ := rfl
  exact ⟨_, accepted, rfl, by decide +kernel, (followPasses_linear accepted).2⟩

end Grammar

end Lookahead
