import Lookahead.Proofs.FirstSets.Meaning
import Lookahead.Proofs.FollowSets.Constraints
import Lookahead.Proofs.Grammar.Accepted
import Lookahead.Proofs.MemberCount
import Lookahead.Proofs.Saturation
import Mathlib.Order.Bounds.Basic

/-!
FOLLOW sets as the least solution of their constraints, for any FIRST sets. Each extension stays below
every solution, and one that adds nothing changes nothing, so passes end with a solution.
-/

namespace Lookahead

namespace Growth

variable {first : FirstSets} {source symbol : Nat} {after : List Nat} {s : Growth}

def addition (first : FirstSets) (source : Nat) (after : List Nat) (s : Growth) : IndexSet :=
  if epsilonIndex ∈ first.ofSequence after then
    (first.ofSequence after).erase epsilonIndex ∪ s.get source
  else first.ofSequence after

theorem mem_addition {i : Nat} : i ∈ s.addition first source after ↔
    i ∈ first.ofSequence after ∧ i ≠ epsilonIndex ∨
      epsilonIndex ∈ first.ofSequence after ∧ i ∈ s.get source := by
  rw [addition, IndexSet.mem_ite_epsilon]

theorem extend_eq (first : FirstSets) (source symbol : Nat) (after : List Nat) (s : Growth) :
    s.extend first source symbol after =
      if (s.get symbol ∪ s.addition first source after).size = (s.get symbol).size then s
      else ⟨s.sets.insert symbol (s.get symbol ∪ s.addition first source after),
        .grew symbol (s.get symbol ∪ s.addition first source after).size source :: s.log⟩ := rfl

theorem extend_cases (first : FirstSets) (source symbol : Nat) (after : List Nat) (s : Growth) :
    s.extend first source symbol after = s ∧
        (∀ i ∈ s.addition first source after, i ∈ s.get symbol) ∨
      (s.extend first source symbol after).sets =
          s.sets.insert symbol (s.get symbol ∪ s.addition first source after) ∧
        (s.get symbol).size ≠ (s.get symbol ∪ s.addition first source after).size := by
  rw [extend_eq]
  split
  · rename_i same
    refine .inl ⟨rfl, ?_⟩
    intro i member
    have equal := IndexSet.eq_of_subset_of_size_le
      (fun i inside => IndexSet.mem_union.2 (.inl inside)) (Nat.le_of_eq same)
    rw [equal]
    exact IndexSet.mem_union.2 (.inr member)
  · rename_i different
    exact .inr ⟨rfl, Ne.symm different⟩

theorem mem_get_extend {other i : Nat} : i ∈ (s.extend first source symbol after).get other ↔
    i ∈ s.get other ∨ other = symbol ∧ i ∈ s.addition first source after := by
  rcases extend_cases first source symbol after s with ⟨same, inside⟩ | ⟨sets, -⟩
  · rw [same]
    constructor
    · exact .inl
    · intro either
      rcases either with old | ⟨rfl, added⟩
      · exact old
      · exact inside i added
  · change i ∈ (s.extend first source symbol after).sets.setOf other ↔ _
    rw [sets, IndexMap.setOf_insert]
    split
    · rename_i here
      simp [here]
    · rename_i elsewhere
      constructor
      · exact .inl
      · intro either
        rcases either with old | ⟨same, -⟩
        · exact old
        · exact absurd same.symm elsewhere

theorem isSome_get?_extend (known : (s.sets.get? symbol).isSome) (other : Nat) :
    ((s.extend first source symbol after).sets.get? other).isSome ↔
      (s.sets.get? other).isSome := by
  rcases extend_cases first source symbol after s with ⟨same, -⟩ | ⟨sets, -⟩
  · rw [same]
  · rw [sets, IndexMap.get?_insert]
    split
    · rename_i here
      simp [← here, known]
    · rfl

private theorem get_subset_extend (first : FirstSets) (source symbol : Nat) (after : List Nat)
    (s : Growth) (other : Nat) :
    ∀ i ∈ s.get other, i ∈ (s.extend first source symbol after).get other :=
  fun _ inside => mem_get_extend.2 (.inl inside)

theorem size_le_extend (first : FirstSets) (source symbol : Nat) (after : List Nat) (s : Growth) :
    s.size ≤ (s.extend first source symbol after).size :=
  IndexMap.memberCount_le (get_subset_extend first source symbol after s)

theorem extend_eq_self (small : (s.extend first source symbol after).size ≤ s.size) :
    s.extend first source symbol after = s := by
  rcases extend_cases first source symbol after s with ⟨same, -⟩ | ⟨sets, larger⟩
  · exact same
  · have unchanged := IndexMap.setOf_eq_of_memberCount_le
      (get_subset_extend first source symbol after s) small symbol
    rw [sets, IndexMap.setOf_insert, if_pos rfl] at unchanged
    exact absurd (congrArg IndexSet.size unchanged) larger

end Growth

/-- An index without an entry has the empty set. -/
def FollowSets.family (follow : FollowSets) (symbol : Nat) : Set Nat :=
  {i | ∃ set, follow.get? symbol = some set ∧ i ∈ set}

namespace Grammar

variable {g : Grammar} {first : FirstSets} {s : Growth}

/-- On the way to the least solution: nothing is known that some solution does not have. -/
structure Approaches (g : Grammar) (first : FirstSets) (s : Growth) : Prop where
  keyed : ∀ symbol, (s.sets.get? symbol).isSome ↔ g.isNonTerminal symbol
  endMark : endMarkIndex ∈ s.get g.start
  below : ∀ family, g.Solves first family → ∀ symbol, ∀ i ∈ s.get symbol, i ∈ family symbol

private theorem get?_foldl_insert (l : List (NonTerminal × Nat)) (m : IndexMap IndexSet) (i : Nat) :
    (l.foldl (fun m n => m.insert n.2 ∅) m).get? i =
      if i ∈ l.map (·.2) then some ∅ else m.get? i := by
  induction l generalizing m with
  | nil => rfl
  | cons n rest ih =>
    rw [List.foldl_cons, ih, IndexMap.get?_insert, List.map_cons]
    by_cases later : i ∈ rest.map (·.2)
    · rw [if_pos later, if_pos (List.mem_cons_of_mem _ later)]
    · rw [if_neg later]
      simp only [List.mem_cons, later, or_false, eq_comm]

theorem get?_initialGrowth (g : Grammar) (symbol : Nat) : g.initialGrowth.sets.get? symbol =
    if g.start = symbol then some {endMarkIndex}
    else if g.isNonTerminal symbol then some ∅ else none := by
  have declared : symbol ∈ g.indexedNonTerminals.map (·.2) ↔ g.isNonTerminal symbol := by
    simp [isNonTerminal_iff_mem]
  change (IndexMap.insert _ g.start {endMarkIndex}).get? symbol = _
  simp only [IndexMap.get?_insert, get?_foldl_insert, declared, IndexMap.get?_empty]

theorem approaches_initialGrowth (start : g.isNonTerminal g.start) :
    g.Approaches first g.initialGrowth := by
  have found := get?_initialGrowth g
  refine ⟨?_, ?_, ?_⟩
  · intro symbol
    rw [found]
    split
    · rename_i here
      simp [← here, start]
    · split <;> simp [*]
  · rw [Growth.get, found, if_pos rfl]
    simp
  · intro family solves symbol i inside
    rw [Growth.get, found] at inside
    split at inside
    · rename_i here
      obtain rfl : i = endMarkIndex := by simpa using inside
      exact here ▸ solves.endMark
    · split at inside <;> simp at inside

theorem Approaches.extendAt (approaches : g.Approaches first s) {o : Occurrence}
    (member : o ∈ g.occurrences) : g.Approaches first (s.extendAt first o) := by
  have occurs : g.Occurs o.source o.symbol o.after := mem_occurrences.1 member
  refine ⟨?_, ?_, ?_⟩
  · intro symbol
    have known := (approaches.keyed o.symbol).2 occurs.1
    exact (Growth.isSome_get?_extend known symbol).trans (approaches.keyed symbol)
  · exact Growth.mem_get_extend.2 (.inl approaches.endMark)
  · intro family solves symbol i inside
    rcases Growth.mem_get_extend.1 inside with old | ⟨rfl, added⟩
    · exact approaches.below family solves symbol i old
    · rcases Growth.mem_addition.1 added with ⟨ahead, shown⟩ | ⟨vanishing, behind⟩
      · exact solves.ahead _ _ _ occurs i ahead shown
      · have inherited := approaches.below family solves o.source i behind
        exact solves.behind _ _ _ occurs vanishing inherited

theorem Approaches.followPass (approaches : g.Approaches first s) :
    g.Approaches first (g.followPass first s) := by
  rw [followPass_eq_foldl]
  exact foldl_keeps (motive := g.Approaches first)
    (fun _ _ member approaches => approaches.extendAt member) approaches

theorem Approaches.solves (approaches : g.Approaches first s)
    (small : (g.followPass first s).size ≤ s.size) :
    g.followPass first s = s ∧ g.Solves first (FollowSets.family ⟨s.sets⟩) := by
  rw [followPass_eq_foldl] at small ⊢
  obtain ⟨whole, unchanged⟩ :=
    foldl_eq_self_of_size_le (motive := g.Approaches first) Growth.size
      (fun _ _ member approaches => approaches.extendAt member)
      (fun s o _ _ => Growth.size_le_extend first o.source o.symbol o.after s)
      (fun _ _ _ _ small => Growth.extend_eq_self small) approaches small
  have added (source symbol : Nat) (after : List Nat) (occurs : g.Occurs source symbol after)
      (i : Nat) (member : i ∈ s.addition first source after) : i ∈ s.get symbol := by
    have extended : i ∈ (s.extendAt first ⟨source, symbol, after⟩).get symbol :=
      Growth.mem_get_extend.2 (.inr ⟨rfl, member⟩)
    rwa [unchanged _ (mem_occurrences.2 occurs)] at extended
  refine ⟨whole, ?_, ?_, ?_⟩
  · exact IndexMap.mem_setOf.1 approaches.endMark
  · intro source symbol after occurs i ahead shown
    have member : i ∈ s.addition first source after :=
      Growth.mem_addition.2 (.inl ⟨ahead, shown⟩)
    exact IndexMap.mem_setOf.1 (added source symbol after occurs i member)
  · intro source symbol after occurs vanishing i behind
    have member : i ∈ s.addition first source after :=
      Growth.mem_addition.2 (.inr ⟨vanishing, IndexMap.mem_setOf.2 behind⟩)
    exact IndexMap.mem_setOf.1 (added source symbol after occurs i member)

theorem exists_of_mem_ofSequence {sequence : List Nat} {i : Nat}
    (member : i ∈ first.ofSequence sequence) (shown : i ≠ epsilonIndex) :
    ∃ symbol, i ∈ first.get symbol := by
  induction sequence with
  | nil => exact absurd (IndexSet.mem_singleton.1 member) shown
  | cons symbol rest ih =>
    rcases FirstSets.mem_ofSequence_cons.1 member with ⟨head, -⟩ | ⟨-, tail⟩
    · exact ⟨symbol, head⟩
    · exact ih tail

theorem Approaches.size_le (start : g.isNonTerminal g.start) (approaches : g.Approaches first s) :
    s.size ≤ (g.nonTerminals.length + 1) * (first.sets.memberCount + 1) := by
  let values : Finset Nat := insert endMarkIndex (first.sets.members.image Prod.snd)
  -- all nonterminals with all that FIRST sets offer are a solution, which bounds the sizes
  have solves : g.Solves first fun symbol => {i | symbol ∈ g.nonTerminalIndices ∧ i ∈ values} := by
    refine ⟨⟨mem_nonTerminalIndices.2 start, Finset.mem_insert_self _ _⟩, ?_, ?_⟩
    · intro source symbol after occurs i ahead shown
      obtain ⟨origin, offered⟩ := exists_of_mem_ofSequence ahead shown
      have pair : (origin, i) ∈ first.sets.members := IndexMap.mem_members.2 offered
      exact ⟨mem_nonTerminalIndices.2 occurs.1,
        Finset.mem_insert_of_mem (Finset.mem_image_of_mem _ pair)⟩
    · intro source symbol after occurs _ i behind
      exact ⟨mem_nonTerminalIndices.2 occurs.1, behind.2⟩
  have bound := IndexMap.memberCount_le_mul (approaches.below _ solves)
  have few : values.card ≤ first.sets.memberCount + 1 := by
    rw [← IndexMap.card_members]
    exact (Finset.card_insert_le _ _).trans (Nat.succ_le_succ Finset.card_image_le)
  rw [card_nonTerminalIndices] at bound
  exact bound.trans (Nat.mul_le_mul (Nat.le_succ _) few)

theorem exists_followPass_iterate (start : g.isNonTerminal g.start) (first : FirstSets) :
    ∃ n, (g.saturateFollow first).passes = n + 1 ∧
      (g.saturateFollow first).result = (g.followPass first)^[n] g.initialGrowth ∧
      g.Approaches first (g.saturateFollow first).result ∧
      g.Solves first (g.followSets first).family ∧
      g.followPass first (g.saturateFollow first).result = (g.saturateFollow first).result ∧
      ∀ k < n, ((g.followPass first)^[k] g.initialGrowth).size <
        ((g.followPass first)^[k + 1] g.initialGrowth).size := by
  obtain ⟨n, same, approaches, still, grows⟩ := Saturation.exists_eq_iterate
    (motive := g.Approaches first) (fun _ approaches => approaches.followPass)
    (fun _ approaches => approaches.size_le start) (approaches_initialGrowth start)
  rw [Function.iterate_succ_apply'] at same still
  obtain ⟨unchanged, solves⟩ := approaches.solves (Nat.le_of_not_lt still)
  rw [unchanged] at same
  have run : g.saturateFollow first = ⟨n + 1, (g.followPass first)^[n] g.initialGrowth⟩ := same
  rw [followSets, run]
  exact ⟨n, rfl, rfl, approaches, solves, unchanged, grows⟩

theorem isSome_get?_followSets (start : g.isNonTerminal g.start) (first : FirstSets) (symbol : Nat) :
    ((g.followSets first).get? symbol).isSome ↔ g.isNonTerminal symbol := by
  obtain ⟨-, -, -, approaches, -⟩ := exists_followPass_iterate start first
  exact approaches.keyed symbol

theorem isLeast_family (start : g.isNonTerminal g.start) (first : FirstSets) :
    IsLeast {family | g.Solves first family} (g.followSets first).family := by
  obtain ⟨-, -, -, approaches, solves, -⟩ := exists_followPass_iterate start first
  refine ⟨solves, ?_⟩
  intro family other symbol i member
  exact approaches.below family other symbol i (IndexMap.mem_setOf.2 member)

/-- A bound on what FIRST sets offer, and on the end mark, is one on FOLLOW sets. -/
theorem lt_of_mem_followSets (start : g.isNonTerminal g.start) {bound : Nat} (last : endMarkIndex < bound)
    (offered : ∀ symbol, ∀ i ∈ first.get symbol, i < bound) {symbol : Nat} {follow : IndexSet}
    (found : (g.followSets first).get? symbol = some follow) : ∀ i ∈ follow, i < bound := by
  have solves : g.Solves first fun _ => {i | i < bound} := by
    refine ⟨last, ?_, fun _ _ _ _ _ => subset_rfl⟩
    intro source symbol after occurs i ahead shown
    obtain ⟨origin, member⟩ := exists_of_mem_ofSequence ahead shown
    exact offered origin i member
  intro i member
  exact (isLeast_family start first).2 solves symbol ⟨follow, found, member⟩

/-- FOLLOW sets are computed to their end for any FIRST sets, also those of another grammar. There are
sets for the nonterminals, and they are the least solution of the constraints. -/
theorem followSets_least {rules : List Rule} {start epsilon : String} {g : Grammar}
    (accepted : build rules start epsilon = .ok g) (first : FirstSets) :
    (∃ n, (g.saturateFollow first).passes = n + 1 ∧
      (g.saturateFollow first).result = (g.followPass first)^[n] g.initialGrowth ∧
      g.followPass first (g.saturateFollow first).result = (g.saturateFollow first).result ∧
      ∀ k < n, ((g.followPass first)^[k] g.initialGrowth).size <
        ((g.followPass first)^[k + 1] g.initialGrowth).size) ∧
    (∀ symbol, ((g.followSets first).get? symbol).isSome ↔ g.isNonTerminal symbol) ∧
    IsLeast {family | g.Solves first family} (g.followSets first).family := by
  have nonTerminal := (wellFormed_of_build accepted).start
  obtain ⟨n, passes, result, -, -, unchanged, grows⟩ := exists_followPass_iterate nonTerminal first
  refine ⟨⟨n, passes, result, unchanged, grows⟩, ?_, ?_⟩
  · exact isSome_get?_followSets nonTerminal first
  · exact isLeast_family nonTerminal first

/-- By FIRST sets in which the second nonterminal is nullable, no terminal comes after `S`, although
`A → c` in the grammar itself. -/
theorem followSets_least_of_other_grammar :
    ∃ g other, build [⟨"S", [["S", "A"], ["c"]]⟩, ⟨"A", [["c"]]⟩] "S" "ε" = .ok g ∧
      build [⟨"S", [["A", "a"], ["b"]]⟩, ⟨"A", [["ε"]]⟩] "S" "ε" = .ok other ∧
      (g.followSets other.firstSets).get? 2 = some {endMarkIndex} ∧
      IsLeast {family | g.Solves other.firstSets family} (g.followSets other.firstSets).family := by
  have accepted : build [⟨"S", [["S", "A"], ["c"]]⟩, ⟨"A", [["c"]]⟩] "S" "ε" =
      .ok ⟨"ε", [⟨"S", [[2, 3], [4]]⟩, ⟨"A", [[4]]⟩], ["c"], 2⟩ := rfl
  have also : build [⟨"S", [["A", "a"], ["b"]]⟩, ⟨"A", [["ε"]]⟩] "S" "ε" =
      .ok ⟨"ε", [⟨"S", [[3, 4], [5]]⟩, ⟨"A", [[0]]⟩], ["a", "b"], 2⟩ := rfl
  exact ⟨_, _, accepted, also, by decide +kernel, (followSets_least accepted _).2.2⟩

end Grammar

end Lookahead
