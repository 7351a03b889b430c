import Lookahead.Proofs.Events
import Lookahead.Proofs.FollowSets.Passes
import Lookahead.Proofs.Report.Rows

/-!
Reports of another grammar's sets. Sets are kept by index, and nothing ties them to their grammar, so a report
can meet an index that the grammar has no name for. It then does not exist, and in no other case.
-/

namespace Lookahead

namespace Grammar

variable {g other : Grammar} {first : FirstSets} {follow : FollowSets}

/-- The set of the entry, if there is one, has an index that the grammar has no symbol for. -/
def Exceeds (g : Grammar) (entry : Option IndexSet) : Prop := ∃ set, entry = some set ∧ ∃ j ∈ set, g.size ≤ j

theorem not_exceeds_iff {entry : Option IndexSet} : ¬ g.Exceeds entry ↔ ∀ j ∈ entry.getD ∅, j < g.size := by
  cases entry with
  | none => simp [Exceeds]
  | some set => simp [Exceeds]

theorem isSome_listing?_getD_iff {entry : Option IndexSet} :
    (g.listing? (entry.getD ∅)).isSome ↔ ¬ g.Exceeds entry := by
  rw [isSome_listing?_iff, not_exceeds_iff]

theorem isSome_nonTerminalRow?_iff {n : NonTerminal × Nat} : (g.nonTerminalRow? first follow n).isSome ↔
    ¬ g.Exceeds (first.get? n.2) ∧ ¬ g.Exceeds (follow.get? n.2) := by
  rw [← isSome_listing?_getD_iff, ← isSome_listing?_getD_iff, nonTerminalRow?, FirstSets.get]
  cases g.listing? ((first.get? n.2).getD ∅) <;> cases g.listing? ((follow.get? n.2).getD ∅) <;> simp

theorem isSome_terminalRow?_iff {t : String × Nat} :
    (g.terminalRow? first t).isSome ↔ ¬ g.Exceeds (first.get? t.2) := by
  rw [← isSome_listing?_getD_iff, terminalRow?, FirstSets.get]
  cases g.listing? ((first.get? t.2).getD ∅) <;> simp

theorem isSome_setsReport?_iff_rows : (g.setsReport? first follow).isSome ↔
    (∀ n ∈ g.indexedNonTerminals, (g.nonTerminalRow? first follow n).isSome) ∧
      ∀ t ∈ g.indexedTerminals, (g.terminalRow? first t).isSome := by
  rw [setsReport?_eq, ← isSome_mapM_iff, ← isSome_mapM_iff]
  cases g.indexedNonTerminals.mapM (g.nonTerminalRow? first follow) <;>
    cases g.indexedTerminals.mapM (g.terminalRow? first) <;> simp

theorem isSome_setsReport?_iff : (g.setsReport? first follow).isSome ↔
    (∀ i, g.isNonTerminal i → ¬ g.Exceeds (first.get? i) ∧ ¬ g.Exceeds (follow.get? i)) ∧
      ∀ i, g.IsTerminal i → ¬ g.Exceeds (first.get? i) := by
  simp only [isSome_setsReport?_iff_rows, isSome_nonTerminalRow?_iff, isSome_terminalRow?_iff,
    isNonTerminal_iff_mem, isTerminal_iff_mem, Prod.forall]
  constructor
  · intro rows
    exact ⟨fun i ⟨n, member⟩ => rows.1 n i member, fun i ⟨name, member⟩ => rows.2 name i member⟩
  · intro symbols
    exact ⟨fun n i member => symbols.1 i ⟨n, member⟩, fun name i member => symbols.2 i ⟨name, member⟩⟩

theorem setsReport?_eq_none_iff : g.setsReport? first follow = none ↔
    (∃ i, g.isNonTerminal i ∧ (g.Exceeds (first.get? i) ∨ g.Exceeds (follow.get? i))) ∨
      ∃ i, g.IsTerminal i ∧ g.Exceeds (first.get? i) := by
  rw [← Option.not_isSome_iff_eq_none, isSome_setsReport?_iff]
  simp only [not_and_or, not_forall, not_not, exists_prop]

section Bounded

variable {bound : Nat}

theorem not_exceeds_of_lt {entry : Option IndexSet} (fits : bound ≤ g.size)
    (below : ∀ set, entry = some set → ∀ j ∈ set, j < bound) : ¬ g.Exceeds entry := by
  intro given
  obtain ⟨set, found, j, member, beyond⟩ := given
  exact absurd (below set found j member) (Nat.not_lt.2 (fits.trans beyond))

/-- FIRST and FOLLOW sets without large indices are always reported. -/
theorem isSome_setsReport?_of_lt (fits : bound ≤ g.size)
    (below : ∀ i set, first.get? i = some set → ∀ j ∈ set, j < bound)
    (below' : ∀ i set, follow.get? i = some set → ∀ j ∈ set, j < bound) : (g.setsReport? first follow).isSome := by
  refine isSome_setsReport?_iff.2 ⟨?_, ?_⟩
  · exact fun i _ => ⟨not_exceeds_of_lt fits (below i), not_exceeds_of_lt fits (below' i)⟩
  · exact fun i _ => not_exceeds_of_lt fits (below i)

end Bounded

/-- A report is missing just where one of its rows has to name a symbol that the grammar does not have. FOLLOW sets
can be made from any FIRST sets, and the sets of a grammar that is no larger are always reported. -/
theorem setsReport_missing_iff {rules rules' : List Rule} {start start' epsilon epsilon' : String} {g other : Grammar}
    (accepted : build rules start epsilon = .ok g) (accepted' : build rules' start' epsilon' = .ok other) :
    (∀ first follow, g.setsReport? first follow = none ↔
      (∃ i, g.isNonTerminal i ∧ (g.Exceeds (first.get? i) ∨ g.Exceeds (follow.get? i))) ∨
        ∃ i, g.IsTerminal i ∧ g.Exceeds (first.get? i)) ∧
    (∀ first, g.NamesAll (g.followLog first) ∧
      g.followPass first (g.saturateFollow first).result = (g.saturateFollow first).result) ∧
    (other.size ≤ g.size → (g.setsReport? other.firstSets (other.followSets other.firstSets)).isSome ∧
      (g.setsReport? other.firstSets (g.followSets other.firstSets)).isSome) := by
  have wellFormed := wellFormed_of_build accepted
  have wellFormed' := wellFormed_of_build accepted'
  have below (i : Nat) (set : IndexSet) (found : other.firstSets.get? i = some set) : ∀ j ∈ set, j < other.size :=
    fun _ member => lt_size_of_mem_firstSets wellFormed' found member
  refine ⟨fun _ _ => setsReport?_eq_none_iff, ?_, ?_⟩
  · exact fun first => ⟨namesAll_followLog g first, followPass_result wellFormed.start first⟩
  · intro fits
    refine ⟨isSome_setsReport?_of_lt fits below ?_, isSome_setsReport?_of_lt fits below ?_⟩
    · exact fun i set found j member => lt_size_of_mem_followSets wellFormed' found member
    · exact fun i set found j member => lt_size_of_mem_followSets_of_other wellFormed.start wellFormed' found member

/-- In `S → x S y | x` the symbol `y` comes after `S`, and its index is one that `S → a` does not have. FOLLOW sets that
`S → a` makes from the same FIRST sets are reported, since nothing but the end mark comes after `S` there. -/
theorem setsReport_missing_iff_two_terminals : ∃ g other,
    build [⟨"S", [["a"]]⟩] "S" "ε" = .ok g ∧ build [⟨"S", [["x", "S", "y"], ["x"]]⟩] "S" "ε" = .ok other ∧
    g.setsReport? other.firstSets (other.followSets other.firstSets) = none ∧
    g.setsReport? other.firstSets (g.followSets other.firstSets) ≠ none ∧
    (other.setsReport? g.firstSets (g.followSets g.firstSets)).isSome := by
  have accepted : build [⟨"S", [["a"]]⟩] "S" "ε" = .ok ⟨"ε", [⟨"S", [[3]]⟩], ["a"], 2⟩ := rfl
  have accepted' : build [⟨"S", [["x", "S", "y"], ["x"]]⟩] "S" "ε" =
      .ok ⟨"ε", [⟨"S", [[3, 2, 4], [3]]⟩], ["x", "y"], 2⟩ := rfl
  obtain ⟨missing, -, -⟩ := setsReport_missing_iff accepted accepted'
  obtain ⟨-, -, smaller⟩ := setsReport_missing_iff accepted' accepted
  refine ⟨_, _, accepted, accepted', (missing _ _).2 (.inl ⟨2, rfl, .inr ?_⟩), ?_, (smaller (by decide)).1⟩
  · exact ⟨.ofList [1, 4], by decide +kernel, 4, by decide, by decide⟩
  · decide +kernel

end Grammar

end Lookahead
