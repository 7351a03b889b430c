import Lookahead.Proofs.FollowSets.Exact
import Lookahead.Proofs.Grammar.Names
import Lookahead.Report.Sets

/-!
Rows of the report of a grammar's own sets. Every set is listed, with the names of its members, so the
report is there for every accepted grammar.
-/

namespace Lookahead

namespace Grammar

variable {g : Grammar}

/-- Epsilon and the end mark are listed apart from the other members. -/
theorem perm_markers (s : IndexSet) :
    ((s.filter fun i => i != epsilonIndex && i != endMarkIndex).toList ++
      (if epsilonIndex ∈ s then [epsilonIndex] else []) ++
      if endMarkIndex ∈ s then [endMarkIndex] else []).Perm s.toList := by
  have distinct (t : IndexSet) : t.toList.Nodup := t.increasing.imp Nat.ne_of_lt
  have apart : epsilonIndex ≠ endMarkIndex := by decide
  rw [List.perm_ext_iff_of_nodup ?_ (distinct s)]
  · intro i
    by_cases hidden : i = epsilonIndex
    · simp only [hidden]
      split <;> split <;> simp_all
    by_cases last : i = endMarkIndex
    · simp only [last]
      split <;> split <;> simp_all
    split <;> split <;> simp_all
  · split <;> split <;> simp_all [List.nodup_append]

theorem isSome_mapM_iff {α β : Type} {f : α → Option β} {l : List α} :
    (l.mapM f).isSome ↔ ∀ a ∈ l, (f a).isSome := by
  induction l with
  | nil => simp
  | cons a rest ih =>
    rw [List.forall_mem_cons, ← ih, List.mapM_cons]
    cases f a <;> cases rest.mapM f <;> simp

theorem isSome_listing?_iff {s : IndexSet} : (g.listing? s).isSome ↔ ∀ i ∈ s, i < g.size := by
  have named : (g.listing? s).isSome ↔
      ∀ i ∈ (s.filter fun i => i != epsilonIndex && i != endMarkIndex).toList, (g.name? i).isSome := by
    rw [← isSome_mapM_iff, listing?]
    cases List.mapM g.name? _ <;> rfl
  rw [named]
  constructor
  · intro all i member
    by_cases hidden : i = epsilonIndex
    · exact hidden ▸ Usable.lt_size (.inl rfl)
    by_cases last : i = endMarkIndex
    · exact last ▸ g.endMarkIndex_lt_size
    · exact (isSome_name?_iff g i).1 (all i (IndexSet.mem_filter.2 ⟨member, by simp [hidden, last]⟩))
  · intro inside i member
    exact (isSome_name?_iff g i).2 (inside i (IndexSet.mem_filter.1 member).1)

theorem listing?_eq {s : IndexSet} (inside : ∀ i ∈ s, i < g.size) : g.listing? s = some
    (sortNames ((s.filter fun i => i != epsilonIndex && i != endMarkIndex).toList.map g.nameOf) ++
      (if epsilonIndex ∈ s then [g.epsilon] else []) ++ (if endMarkIndex ∈ s then [endMark] else [])) := by
  have plain : ∀ i ∈ s.filter fun i => i != epsilonIndex && i != endMarkIndex, i < g.size :=
    fun i member => inside i (IndexSet.mem_filter.1 member).1
  rw [listing?, mapM_name? plain]
  rfl

theorem exists_listing (distinct : g.names.Nodup) {s : IndexSet} (inside : ∀ i ∈ s, i < g.size) :
    ∃ names, g.listing? s = some names ∧ g.Lists names s := by
  refine ⟨_, listing?_eq inside, lists_of_perm distinct inside ?_⟩
  have hidden : (if epsilonIndex ∈ s then [g.epsilon] else []) =
      (if epsilonIndex ∈ s then [epsilonIndex] else []).map g.nameOf := by split <;> rfl
  have last : (if endMarkIndex ∈ s then [endMark] else []) =
      (if endMarkIndex ∈ s then [endMarkIndex] else []).map g.nameOf := by split <;> rfl
  have named := (perm_markers s).map g.nameOf
  rw [List.map_append, List.map_append] at named
  rw [hidden, last]
  exact (((sortNames_perm _).append_right _).append_right _).trans named

theorem exists_mapM_eq_some {α β : Type} {f : α → Option β} {related : α → β → Prop} {l : List α}
    (each : ∀ a ∈ l, ∃ b, f a = some b ∧ related a b) :
    ∃ bs, l.mapM f = some bs ∧ List.Forall₂ related l bs := by
  induction l with
  | nil => exact ⟨[], rfl, .nil⟩
  | cons a rest ih =>
    obtain ⟨b, first, holds⟩ := each a List.mem_cons_self
    obtain ⟨bs, later, all⟩ := ih fun a member => each a (List.mem_cons_of_mem _ member)
    exact ⟨b :: bs, by simp [List.mapM_cons, first, later], .cons holds all⟩

/-- A row of a nonterminal, with the names in its own sets. -/
structure DescribesNonTerminal (g : Grammar) (n : NonTerminal × Nat) (row : NonTerminalRow) : Prop where
  name : row.name = n.1.name
  nullable : row.nullable = g.firstSets.isNullable n.2
  first : ∃ set, g.firstSets.get? n.2 = some set ∧ g.Lists row.first set
  follow : ∃ set, (g.followSets g.firstSets).get? n.2 = some set ∧ g.Lists row.follow set

structure DescribesTerminal (g : Grammar) (t : String × Nat) (row : TerminalRow) : Prop where
  name : row.name = t.1
  first : ∃ set, g.firstSets.get? t.2 = some set ∧ g.Lists row.first set

theorem exists_first_listing (wellFormed : g.WellFormed) (distinct : g.names.Nodup) {i : Nat}
    (usable : g.Usable i) : ∃ set names, g.firstSets.get? i = some set ∧
      g.listing? (g.firstSets.get i) = some names ∧ g.Lists names set := by
  obtain ⟨set, found⟩ := Option.isSome_iff_exists.1 ((isSome_get?_firstSets wellFormed i).2 usable)
  obtain ⟨names, listed, lists⟩ := exists_listing distinct
    fun j member => lt_size_of_mem_firstSets wellFormed found member
  exact ⟨set, names, found, by rw [FirstSets.get, found, Option.getD_some, listed], lists⟩

theorem exists_follow_listing (wellFormed : g.WellFormed) (distinct : g.names.Nodup) {i : Nat}
    (nonTerminal : g.isNonTerminal i) : ∃ set names, (g.followSets g.firstSets).get? i = some set ∧
      g.listing? (((g.followSets g.firstSets).get? i).getD ∅) = some names ∧ g.Lists names set := by
  obtain ⟨set, found⟩ := Option.isSome_iff_exists.1
    ((isSome_get?_followSets wellFormed.start g.firstSets i).2 nonTerminal)
  obtain ⟨names, listed, lists⟩ := exists_listing distinct
    fun j member => lt_size_of_mem_followSets wellFormed found member
  exact ⟨set, names, found, by rw [found, Option.getD_some, listed], lists⟩

def nonTerminalRow? (g : Grammar) (first : FirstSets) (follow : FollowSets) (n : NonTerminal × Nat) :
    Option NonTerminalRow := do
  return ⟨n.1.name, first.isNullable n.2, ← g.listing? (first.get n.2),
    ← g.listing? ((follow.get? n.2).getD ∅)⟩

def terminalRow? (g : Grammar) (first : FirstSets) (t : String × Nat) : Option TerminalRow := do
  return ⟨t.1, ← g.listing? (first.get t.2)⟩

theorem setsReport?_eq (g : Grammar) (first : FirstSets) (follow : FollowSets) :
    g.setsReport? first follow =
      (g.indexedNonTerminals.mapM (g.nonTerminalRow? first follow)).bind fun nonTerminals =>
        (g.indexedTerminals.mapM (g.terminalRow? first)).bind fun terminals =>
          some ⟨g.epsilon, nonTerminals, terminals⟩ := rfl

theorem exists_nonTerminalRow (wellFormed : g.WellFormed) (distinct : g.names.Nodup)
    {n : NonTerminal × Nat} (member : n ∈ g.indexedNonTerminals) :
    ∃ row, g.nonTerminalRow? g.firstSets (g.followSets g.firstSets) n = some row ∧
      g.DescribesNonTerminal n row := by
  have nonTerminal := (isNonTerminal_iff_mem g n.2).2 ⟨n.1, member⟩
  obtain ⟨first, firstNames, found, listed, lists⟩ :=
    exists_first_listing wellFormed distinct (.inr (.inl nonTerminal))
  obtain ⟨follow, followNames, found', listed', lists'⟩ :=
    exists_follow_listing wellFormed distinct nonTerminal
  refine ⟨⟨n.1.name, g.firstSets.isNullable n.2, firstNames, followNames⟩, ?_, rfl, rfl,
    ⟨first, found, lists⟩, ⟨follow, found', lists'⟩⟩
  rw [nonTerminalRow?, listed, listed']
  rfl

theorem exists_terminalRow (wellFormed : g.WellFormed) (distinct : g.names.Nodup) {t : String × Nat}
    (member : t ∈ g.indexedTerminals) :
    ∃ row, g.terminalRow? g.firstSets t = some row ∧ g.DescribesTerminal t row := by
  have terminal := (isTerminal_iff_mem g t.2).2 ⟨t.1, member⟩
  obtain ⟨first, firstNames, found, listed, lists⟩ :=
    exists_first_listing wellFormed distinct (.inr (.inr terminal))
  refine ⟨⟨t.1, firstNames⟩, ?_, rfl, first, found, lists⟩
  rw [terminalRow?, listed]
  rfl

/-- The report of an accepted grammar has a row for each nonterminal and each terminal, in order. -/
theorem exists_setsReport (wellFormed : g.WellFormed) (distinct : g.names.Nodup) :
    ∃ nonTerminals terminals,
      g.setsReport? g.firstSets (g.followSets g.firstSets) = some ⟨g.epsilon, nonTerminals, terminals⟩ ∧
      List.Forall₂ g.DescribesNonTerminal g.indexedNonTerminals nonTerminals ∧
      List.Forall₂ g.DescribesTerminal g.indexedTerminals terminals := by
  obtain ⟨nonTerminals, found, rows⟩ := exists_mapM_eq_some fun _ member =>
    exists_nonTerminalRow wellFormed distinct member
  obtain ⟨terminals, found', rows'⟩ := exists_mapM_eq_some fun _ member =>
    exists_terminalRow wellFormed distinct member
  refine ⟨nonTerminals, terminals, ?_, rows, rows'⟩
  rw [setsReport?_eq, found, Option.bind_some, found', Option.bind_some]

end Grammar

end Lookahead
