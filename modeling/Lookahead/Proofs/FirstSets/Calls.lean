import Lookahead.Proofs.FirstSets.Exact
import Lookahead.Proofs.FirstSets.Marking

/-!
How often a request meets a symbol in progress. Only the bodies of symbols whose evaluation begins are scanned, each of
them once, so this does not happen more often than bodies have nonterminals, and not at all during refinement.
-/

namespace Lookahead

open Marking

namespace Grammar

variable {g : Grammar} {current : IndexSet}

/-- The number of nonterminals in the bodies of the symbols that have begun. -/
def calls (g : Grammar) (begun : List Nat) : Nat :=
  (begun.flatMap fun i => ((g.productions? i).getD []).flatten).countP g.isNonTerminal

theorem calls_cons {symbol : Nat} {productions : List (List Nat)} (found : g.productions? symbol = some productions)
    (begun : List Nat) :
    g.calls (symbol :: begun) = productions.flatten.countP g.isNonTerminal + g.calls begun := by
  rw [calls, List.flatMap_cons, List.countP_append, found]
  rfl

/-- Between the states, no more events have happened than there are calls in the bodies begun, and `extra` ones. -/
def Affords (g : Grammar) (extra : Nat) (s later : Marking) : Prop :=
  later.evaluation.log.length + g.calls s.begun ≤ s.evaluation.log.length + g.calls later.begun + extra

theorem Affords.trans {extra extra' : Nat} {s middle later : Marking} (first : g.Affords extra s middle)
    (second : g.Affords extra' middle later) : g.Affords (extra + extra') s later := by
  unfold Affords at *
  omega

theorem Affords.mono {extra extra' : Nat} {s later : Marking} (affords : g.Affords extra s later)
    (fewer : extra ≤ extra') : g.Affords extra' s later := Nat.le_trans affords (Nat.add_le_add_left fewer _)

theorem affords_of_eq (extra : Nat) {s later : Marking} (log : later.evaluation.log = s.evaluation.log)
    (begun : later.begun = s.begun) : g.Affords extra s later := by
  rw [Affords, log, begun]
  exact Nat.le_add_right _ _

theorem affords_note (s : At current) (event : Event) : g.Affords 1 s.toMarking (s.note event).toMarking := by
  change s.evaluation.log.length + 1 + g.calls s.begun ≤ s.evaluation.log.length + g.calls s.begun + 1
  omega

/-- The calls of a body are paid for when its symbol is marked. -/
theorem affords_of_mark (extra : Nat) {s : At current} {later : Marking} {symbol : Nat} {productions : List (List Nat)}
    (found : g.productions? symbol = some productions)
    (body : g.Affords (productions.flatten.countP g.isNonTerminal) (s.mark symbol).toMarking later) :
    g.Affords extra s.toMarking later := by
  change _ + g.calls (symbol :: s.begun) ≤ s.evaluation.log.length + _ + _ at body
  rw [calls_cons found] at body
  rw [Affords]
  omega

section Scans

variable {request : Nat → StateM (At current) IndexSet}

theorem affords_firstOfSequence (each : ∀ symbol s, g.Affords (if g.isNonTerminal symbol then 1 else 0)
      s.toMarking (request symbol s).2.toMarking) (sequence : List Nat) (s : At current) :
    g.Affords (sequence.countP g.isNonTerminal) s.toMarking (firstOfSequence request sequence s).2.toMarking := by
  induction sequence generalizing s with
  | nil => exact affords_of_eq _ rfl rfl
  | cons symbol rest ih =>
    rw [firstOfSequence_cons, List.countP_cons, Nat.add_comm]
    by_cases vanishing : epsilonIndex ∈ (request symbol s).1
    · rw [if_pos vanishing]
      exact (each symbol s).trans (ih _)
    · rw [if_neg vanishing]
      exact (each symbol s).mono (Nat.le_add_right _ _)

theorem affords_firstOfAlternatives (each : ∀ symbol s, g.Affords (if g.isNonTerminal symbol then 1 else 0)
      s.toMarking (request symbol s).2.toMarking) (alternatives : List (List Nat)) (s : At current) :
    g.Affords (alternatives.flatten.countP g.isNonTerminal) s.toMarking
      (firstOfAlternatives request alternatives s).2.toMarking := by
  induction alternatives generalizing s with
  | nil => exact affords_of_eq _ rfl rfl
  | cons sequence rest ih =>
    rw [firstOfAlternatives_cons, List.flatten_cons, List.countP_append]
    exact (affords_firstOfSequence each sequence s).trans (ih _)

end Scans

/-- A request is an event of its own only for a symbol that is marked. -/
theorem affords_requestMarked (current : IndexSet) (symbol : Nat) (s : At current)
    (nonTerminals : ∀ i ∈ current, g.isNonTerminal i) :
    g.Affords (if symbol ∈ current then 1 else 0) s.toMarking (g.requestMarked current symbol s).2.toMarking := by
  fun_induction Grammar.requestMarked g current symbol s with
  | case1 => exact affords_of_eq _ rfl rfl
  | case2 => exact affords_of_eq _ rfl rfl
  | case3 current symbol s missing productions found marked =>
    rw [if_pos (s.marked ▸ marked)]
    exact affords_note s _
  | case4 current symbol s missing productions found marked fresh evaluated ih =>
    have inside : ∀ i ∈ (insert symbol current : IndexSet), g.isNonTerminal i := by
      intro i member
      rcases IndexSet.mem_insert.1 member with rfl | older
      · exact isNonTerminal_of_productions? found
      · exact nonTerminals i older
    -- only nonterminals are marked, so the count over the body covers every request that can meet a mark
    have each (next : Nat) (s : At (insert symbol current)) :
        g.Affords (if g.isNonTerminal next then 1 else 0) s.toMarking
          (g.requestMarked (insert symbol current) next s).2.toMarking := by
      refine (ih next s inside).mono ?_
      split
      · rename_i member
        rw [if_pos (inside next member)]
      · exact Nat.zero_le _
    have body := affords_firstOfAlternatives each productions (s.mark symbol)
    exact (affords_of_mark _ found body).trans (affords_of_eq 0 rfl rfl)

theorem length_log_evaluateMarked (g : Grammar) :
    g.evaluateMarked.evaluation.log.length ≤ g.calls g.evaluateMarked.begun := by
  refine foldl_keeps (motive := fun s : At ∅ => s.evaluation.log.length ≤ g.calls s.begun) ?_ (Nat.zero_le _)
  intro s symbol _ within
  have affords := affords_requestMarked (g := g) ∅ symbol s fun i member => absurd member (IndexSet.not_mem_empty i)
  rw [Affords, if_neg (IndexSet.not_mem_empty symbol)] at affords
  omega

theorem perm_begun_evaluateMarked (wellFormed : g.WellFormed) :
    g.evaluateMarked.begun.Perm (g.indexedNonTerminals.map (·.2)) := by
  have distinct : (g.indexedNonTerminals.map (·.2)).Nodup := by
    rw [indexedNonTerminals, List.zipIdx_map_snd]
    exact List.nodup_range'
  have orderly := orderly_evaluateMarked g
  have primed : g.Primed g.evaluateMarked.evaluation := by
    rw [evaluation_evaluateMarked]
    exact (ready_evaluate wellFormed).primed
  rw [List.perm_ext_iff_of_nodup orderly.once distinct]
  intro i
  rw [orderly.mem_begun_iff g.evaluateMarked.marked primed, isNonTerminal_iff_mem]
  simp

theorem calls_nonTerminals (g : Grammar) : g.calls (g.indexedNonTerminals.map (·.2)) =
    (g.nonTerminals.flatMap fun n => n.productions.flatten).countP g.isNonTerminal := by
  have bodies : (g.indexedNonTerminals.map (·.2)).flatMap (fun i => ((g.productions? i).getD []).flatten) =
      (g.indexedNonTerminals.map (·.1)).flatMap fun n => n.productions.flatten := by
    rw [List.flatMap_map, List.flatMap_map]
    refine List.flatMap_congr fun n member => ?_
    rw [productions?_of_mem member]
    rfl
  rw [calls, bodies, indexedNonTerminals, List.zipIdx_map_fst]

theorem length_log_evaluate (wellFormed : g.WellFormed) : g.evaluate.log.length ≤
    (g.nonTerminals.flatMap fun n => n.productions.flatten).countP g.isNonTerminal := by
  have all : g.calls g.evaluateMarked.begun = g.calls (g.indexedNonTerminals.map (·.2)) :=
    ((perm_begun_evaluateMarked wellFormed).flatMap_right _).countP_eq _
  rw [← calls_nonTerminals, ← all, ← evaluation_evaluateMarked]
  exact length_log_evaluateMarked g

theorem exists_reentries (g : Grammar) : ∃ reentries : List Nat, g.evaluate.log.reverse = reentries.map .reentered := by
  have reentered : g.evaluate.log.reverse ∈ {l : List Event | ∀ event ∈ l, event ∈ Set.range Event.reentered} := by
    intro event member
    exact forall_mem_log_evaluate (fun symbol _ => Set.mem_range_self symbol) event (List.mem_reverse.1 member)
  rw [← Set.range_list_map] at reentered
  obtain ⟨reentries, same⟩ := reentered
  exact ⟨reentries, same.symm⟩

theorem size_cache_settle (wellFormed : g.WellFormed) :
    (g.settle g.evaluate).result.cache.size = g.size - 1 := by
  have primed := (settled_evaluate wellFormed).1.primed
  have keyed (i : Nat) : ((g.settle g.evaluate).result.cache.get? i).isSome ↔
      i ∈ (Finset.range g.size).erase endMarkIndex := by
    rw [primed.cached, usable_iff_lt_size, Finset.mem_erase, Finset.mem_range, and_comm]
  rw [IndexMap.size_eq_card keyed, Finset.card_erase_of_mem (Finset.mem_range.2 g.endMarkIndex_lt_size),
    Finset.card_range]

/-- The evaluation of every nonterminal begins once. Requests that meet a symbol in progress are no more than there are
nonterminals in productions, and refinement makes none. In the end everything but the end mark has its set, and no mark
is left. -/
theorem evaluation_begins_once {rules : List Rule} {start epsilon : String} {g : Grammar}
    (accepted : build rules start epsilon = .ok g) :
    (∃ (reentries : List Nat) (passes : Nat),
      g.firstLog = reentries.map .reentered ++ [.settled passes (g.size - 1)] ∧
      reentries.length ≤ (g.nonTerminals.flatMap fun n => n.productions.flatten).countP g.isNonTerminal) ∧
    (g.settle g.evaluate).result.log = g.evaluate.log ∧
    (∀ i, (g.firstSets.get? i).isSome ↔ i < g.size ∧ i ≠ endMarkIndex) ∧
    g.markedRun.evaluation = (g.settle g.evaluate).result ∧ g.markedRun.marks = ∅ ∧
    g.markedRun.begun.Nodup ∧ ∀ i, i ∈ g.markedRun.begun ↔ g.isNonTerminal i := by
  have wellFormed := wellFormed_of_build accepted
  have orderly := orderly_markedRun wellFormed
  have known (i : Nat) : (g.firstSets.get? i).isSome ↔ i < g.size ∧ i ≠ endMarkIndex :=
    (isSome_get?_firstSets wellFormed i).trans (usable_iff_lt_size g i)
  have unmarked : g.markedRun.marks = ∅ := At.marked _
  have primed : g.Primed g.markedRun.evaluation := by
    rw [evaluation_markedRun]
    exact (settled_evaluate wellFormed).1.primed
  refine ⟨?_, (ready_evaluate wellFormed).log_settle wellFormed, known, evaluation_markedRun g, unmarked, orderly.once,
    orderly.mem_begun_iff unmarked primed⟩
  obtain ⟨reentries, same⟩ := exists_reentries g
  refine ⟨reentries, (g.settle g.evaluate).passes, ?_, ?_⟩
  · rw [firstLog_eq wellFormed, same, size_cache_settle wellFormed]
  · have few := length_log_evaluate wellFormed
    rwa [← List.length_reverse, same, List.length_map] at few

/-- In `S → S | S a | b` each of the two occurrences of `S` is requested while `S` is in progress. -/
theorem evaluation_begins_once_direct_recursion :
    ∃ g, build [⟨"S", [["S"], ["S", "a"], ["b"]]⟩] "S" "ε" = .ok g ∧
      (g.nonTerminals.flatMap fun n => n.productions.flatten).countP g.isNonTerminal = 2 ∧
      g.firstLog = [.reentered 2, .reentered 2, .settled 1 4] ∧
      (∃ (reentries : List Nat) (passes : Nat),
        g.firstLog = reentries.map .reentered ++ [.settled passes 4] ∧ reentries.length ≤ 2) ∧
      g.markedRun.begun = [2] ∧ ∀ i, i ∈ g.markedRun.begun ↔ g.isNonTerminal i := by
  have accepted : build [⟨"S", [["S"], ["S", "a"], ["b"]]⟩] "S" "ε" =
      .ok ⟨"ε", [⟨"S", [[2], [2, 3], [4]]⟩], ["a", "b"], 2⟩ := rfl
  obtain ⟨few, -, -, -, -, -, begun⟩ := evaluation_begins_once accepted
  exact ⟨_, accepted, by decide +kernel, by decide +kernel, few, by decide +kernel, begun⟩

end Grammar

end Lookahead
