import Lookahead.Proofs.Report.Rows

/-!
Reports of any sets, also of another grammar's. There is only one way to list a set: the names of all indices but
the markers come in the order of their code points, and those of the markers after them. So no two sets have the
same list.
-/

namespace Lookahead

namespace Grammar

variable {g : Grammar} {s t : IndexSet} {names names' : List String}

/-- Every index of the set has its place in the list, and only one. The order of the list is strict up to the names
of epsilon and the end mark. -/
structure ListsInOrder (g : Grammar) (names : List String) (s : IndexSet) : Prop extends g.Lists names s where
  once : ∀ i ∈ s, ∃ name, g.name? i = some name ∧ names.count name = 1
  ordered : ∃ plain, plain.Pairwise (· < ·) ∧
    (∀ name, name ∈ plain ↔ ∃ i ∈ s, i ≠ epsilonIndex ∧ i ≠ endMarkIndex ∧ g.name? i = some name) ∧
    names = plain ++ (if epsilonIndex ∈ s then [g.epsilon] else []) ++ if endMarkIndex ∈ s then [endMark] else []

theorem Lists.once (lists : g.Lists names s) (inside : ∀ i ∈ s, i < g.size) :
    ∀ i ∈ s, ∃ name, g.name? i = some name ∧ names.count name = 1 := by
  intro i member
  have named := name?_eq_nameOf (inside i member)
  exact ⟨_, named, List.count_eq_one_of_mem lists.nodup ((lists.mem _).2 ⟨i, member, named⟩)⟩

theorem pairwise_lt_sortNames {names : List String} (distinct : names.Nodup) :
    (sortNames names).Pairwise (· < ·) := by
  have unequal : (sortNames names).Nodup := (sortNames_perm names).nodup_iff.2 distinct
  refine ((pairwise_sortNames names).and unequal).imp ?_
  intro a b both
  by_contra small
  exact both.2 (String.le_antisymm both.1 (String.not_lt.1 small))

theorem listsInOrder_of_listing? (distinct : g.names.Nodup) (found : g.listing? s = some names) :
    g.ListsInOrder names s := by
  have inside := isSome_listing?_iff.1 (Option.isSome_of_eq_some found)
  obtain ⟨names', found', lists⟩ := exists_listing distinct inside
  obtain rfl : names' = names := Option.some.inj (found'.symm.trans found)
  have plain : ∀ i ∈ s.filter fun i => i != epsilonIndex && i != endMarkIndex, i < g.size :=
    fun i member => inside i (IndexSet.mem_filter.1 member).1
  refine ⟨lists, lists.once inside, _, ?_, ?_, Option.some.inj (found'.symm.trans (listing?_eq inside))⟩
  · exact pairwise_lt_sortNames (nodup_map_nameOf distinct plain)
  · intro name
    rw [(sortNames_perm _).mem_iff, mem_map_nameOf plain]
    simp [and_assoc]

theorem ListsInOrder.subset_of_eq (distinct : g.names.Nodup) (lists : g.ListsInOrder names s)
    (lists' : g.ListsInOrder names t) : ∀ i ∈ s, i ∈ t := by
  intro i member
  obtain ⟨name, named, -⟩ := lists.once i member
  obtain ⟨j, member', named'⟩ := (lists'.mem name).1 ((lists.mem name).2 ⟨i, member, named⟩)
  exact eq_of_name? distinct named named' ▸ member'

theorem ListsInOrder.unique (lists : g.ListsInOrder names s) (lists' : g.ListsInOrder names' s) :
    names = names' := by
  obtain ⟨plain, ordered, members, rfl⟩ := lists.ordered
  obtain ⟨plain', ordered', members', rfl⟩ := lists'.ordered
  have distinct {l : List String} (strict : l.Pairwise (· < ·)) : l.Nodup := by
    refine strict.imp ?_
    intro a b less same
    exact String.lt_irrefl b (same ▸ less)
  have permuted : plain.Perm plain' := by
    rw [List.perm_ext_iff_of_nodup (distinct ordered) (distinct ordered')]
    intro name
    rw [members, members']
  have same : plain = plain' := by
    refine permuted.eq_of_pairwise (fun a b _ _ less greater => ?_) ordered ordered'
    exact absurd (String.lt_trans less greater) (String.lt_irrefl a)
  rw [same]

theorem ListsInOrder.eq_iff (distinct : g.names.Nodup) (lists : g.ListsInOrder names s)
    (lists' : g.ListsInOrder names' t) : names = names' ↔ s = t := by
  constructor
  · intro same
    subst same
    ext i
    exact ⟨lists.subset_of_eq distinct lists' i, lists'.subset_of_eq distinct lists i⟩
  · intro same
    subst same
    exact lists.unique lists'

theorem ListsInOrder.epsilon_mem_iff (distinct : g.names.Nodup) (lists : g.ListsInOrder names s) :
    g.epsilon ∈ names ↔ epsilonIndex ∈ s := by
  rw [lists.mem]
  constructor
  · intro given
    obtain ⟨i, member, named⟩ := given
    exact eq_of_name? distinct named g.name?_epsilonIndex ▸ member
  · intro member
    exact ⟨epsilonIndex, member, g.name?_epsilonIndex⟩

theorem ListsInOrder.eq_nil (lists : g.ListsInOrder names ∅) : names = [] := List.length_eq_zero_iff.1 lists.length

/-- A set that may be missing is listed as the empty set then. -/
structure ListsEntry (g : Grammar) (names : List String) (entry : Option IndexSet) : Prop where
  lists : g.ListsInOrder names (entry.getD ∅)
  missing : entry = none → names = []

theorem ListsInOrder.entry {entry : Option IndexSet} (lists : g.ListsInOrder names (entry.getD ∅)) :
    g.ListsEntry names entry := by
  refine ⟨lists, ?_⟩
  intro missing
  rw [missing] at lists
  exact lists.eq_nil

/-- A row of a nonterminal by the sets that are given. -/
structure PrintsNonTerminal (g : Grammar) (first : FirstSets) (follow : FollowSets) (n : NonTerminal × Nat)
    (row : NonTerminalRow) : Prop where
  name : row.name = n.1.name
  nullable : row.nullable = true ↔ g.epsilon ∈ row.first
  first : g.ListsEntry row.first (first.get? n.2)
  follow : g.ListsEntry row.follow (follow.get? n.2)

structure PrintsTerminal (g : Grammar) (first : FirstSets) (t : String × Nat) (row : TerminalRow) : Prop where
  name : row.name = t.1
  first : g.ListsEntry row.first (first.get? t.2)

theorem forall₂_of_mapM {α β : Type} {f : α → Option β} {l : List α} {m : List β} (found : l.mapM f = some m) :
    List.Forall₂ (fun a b => f a = some b) l m := by
  induction l generalizing m with
  | nil =>
    obtain rfl : [] = m := Option.some.inj found
    exact .nil
  | cons a rest ih =>
    rw [List.mapM_cons] at found
    obtain ⟨b, first, found⟩ := Option.bind_eq_some_iff.1 found
    obtain ⟨bs, later, found⟩ := Option.bind_eq_some_iff.1 found
    obtain rfl : b :: bs = m := Option.some.inj found
    exact .cons first (ih later)

variable {first : FirstSets} {follow : FollowSets}

theorem printsNonTerminal_of_row (distinct : g.names.Nodup) {n : NonTerminal × Nat} {row : NonTerminalRow}
    (found : g.nonTerminalRow? first follow n = some row) : g.PrintsNonTerminal first follow n row := by
  obtain ⟨firstNames, listed, found⟩ := Option.bind_eq_some_iff.1 found
  obtain ⟨followNames, listed', found⟩ := Option.bind_eq_some_iff.1 found
  obtain rfl := Option.some.inj found
  have lists := listsInOrder_of_listing? distinct listed
  refine ⟨rfl, ?_, lists.entry, (listsInOrder_of_listing? distinct listed').entry⟩
  rw [lists.epsilon_mem_iff distinct]
  exact decide_eq_true_iff

theorem printsTerminal_of_row (distinct : g.names.Nodup) {t : String × Nat} {row : TerminalRow}
    (found : g.terminalRow? first t = some row) : g.PrintsTerminal first t row := by
  obtain ⟨names, listed, found⟩ := Option.bind_eq_some_iff.1 found
  obtain rfl := Option.some.inj found
  exact ⟨rfl, (listsInOrder_of_listing? distinct listed).entry⟩

theorem rows_of_setsReport? (distinct : g.names.Nodup) {report : SetsReport}
    (found : g.setsReport? first follow = some report) :
    List.Forall₂ (g.PrintsNonTerminal first follow) g.indexedNonTerminals report.nonTerminals ∧
      List.Forall₂ (g.PrintsTerminal first) g.indexedTerminals report.terminals := by
  rw [setsReport?_eq] at found
  obtain ⟨nonTerminals, rows, found⟩ := Option.bind_eq_some_iff.1 found
  obtain ⟨terminals, rows', found⟩ := Option.bind_eq_some_iff.1 found
  obtain rfl := Option.some.inj found
  refine ⟨(forall₂_of_mapM rows).imp ?_, (forall₂_of_mapM rows').imp ?_⟩
  · exact fun n row shown => printsNonTerminal_of_row distinct shown
  · exact fun t row shown => printsTerminal_of_row distinct shown

theorem map_eq_map_of_forall₂ {α β γ : Type} {f : α → γ} {h : β → γ} {l : List α} {m : List β}
    (same : List.Forall₂ (fun a b => h b = f a) l m) : m.map h = l.map f := by
  rw [eq_comm, ← List.forall₂_eq_eq_eq, List.forall₂_map_left_iff, List.forall₂_map_right_iff]
  exact same.imp fun _ _ => Eq.symm

theorem names_of_rows {report : SetsReport}
    (rows : List.Forall₂ (g.PrintsNonTerminal first follow) g.indexedNonTerminals report.nonTerminals)
    (rows' : List.Forall₂ (g.PrintsTerminal first) g.indexedTerminals report.terminals) :
    report.nonTerminals.map (·.name) = g.nonTerminals.map (·.name) ∧
      report.terminals.map (·.name) = g.terminals := by
  have declared : g.indexedNonTerminals.map (·.1) = g.nonTerminals := List.zipIdx_map_fst _ _
  constructor
  · rw [map_eq_map_of_forall₂ (rows.imp fun _ _ prints => prints.name)]
    conv_rhs => rw [← declared, List.map_map]
    rfl
  · rw [map_eq_map_of_forall₂ (rows'.imp fun _ _ prints => prints.name)]
    exact List.zipIdx_map_fst _ _

/-- Whatever sets a report is made of, its rows are those of the grammar's own symbols, in their order, and every set
is listed with its names under the grammar, in the only order for them. -/
theorem setsReport_canonical {rules : List Rule} {start epsilon : String} {g : Grammar}
    (accepted : build rules start epsilon = .ok g) {first : FirstSets} {follow : FollowSets} {report : SetsReport}
    (found : g.setsReport? first follow = some report) :
    report.nonTerminals.map (·.name) = (rules.map (·.left)).eraseDups ∧
    g.symbols = .epsilon :: .endMark :: (report.nonTerminals.map (fun row => .nonTerminal row.name) ++
      report.terminals.map fun row => .terminal row.name) ∧
    (report.nonTerminals.map (·.name) ++ report.terminals.map (·.name)).Nodup ∧
    List.Forall₂ (g.PrintsNonTerminal first follow) g.indexedNonTerminals report.nonTerminals ∧
    List.Forall₂ (g.PrintsTerminal first) g.indexedTerminals report.terminals ∧
    ∀ names names' s t, g.ListsInOrder names s → g.ListsInOrder names' t → (names = names' ↔ s = t) := by
  have distinct := nodup_names_of_build accepted
  obtain ⟨rows, rows'⟩ := rows_of_setsReport? distinct found
  obtain ⟨nonTerminals, terminals⟩ := names_of_rows rows rows'
  refine ⟨?_, ?_, ?_, rows, rows', fun _ _ _ _ lists lists' => lists.eq_iff distinct lists'⟩
  · obtain ⟨-, rfl⟩ := build_eq_ok_iff.1 accepted
    rw [nonTerminals, map_name_nonTerminals]
    rfl
  · have symbols : g.symbols = .epsilon :: .endMark ::
        ((g.nonTerminals.map (·.name)).map .nonTerminal ++ g.terminals.map .terminal) := by
      rw [Grammar.symbols, List.map_map]
      rfl
    rw [symbols, ← nonTerminals, ← terminals, List.map_map, List.map_map]
    rfl
  · rw [names_eq] at distinct
    rw [nonTerminals, terminals]
    exact (List.nodup_cons.1 (List.nodup_cons.1 distinct).2).2

/-- The sets of `S → x S | ε` in a report of `S → z b` and `z → a`, where `x` is `z`, and where nothing is known of `b`
and `a`. -/
theorem setsReport_canonical_of_other_grammar : ∃ g other report,
    build [⟨"S", [["z", "b"]]⟩, ⟨"z", [["a"]]⟩] "S" "ε" = .ok g ∧
    build [⟨"S", [["x", "S"], []]⟩] "S" "ε" = .ok other ∧
    g.setsReport? other.firstSets (other.followSets other.firstSets) = some report ∧
    report = ⟨"ε", [⟨"S", true, ["z", "ε"], ["$"]⟩, ⟨"z", false, ["z"], []⟩], [⟨"b", []⟩, ⟨"a", []⟩]⟩ ∧
    report.nonTerminals.map (·.name) = ["S", "z"].eraseDups ∧
    List.Forall₂ (g.PrintsTerminal other.firstSets) g.indexedTerminals report.terminals := by
  have accepted : build [⟨"S", [["z", "b"]]⟩, ⟨"z", [["a"]]⟩] "S" "ε" =
      .ok ⟨"ε", [⟨"S", [[3, 4]]⟩, ⟨"z", [[5]]⟩], ["b", "a"], 2⟩ := rfl
  have accepted' : build [⟨"S", [["x", "S"], []]⟩] "S" "ε" =
      .ok ⟨"ε", [⟨"S", [[3, 2], []]⟩], ["x"], 2⟩ := rfl
  have found : setsReport? ⟨"ε", [⟨"S", [[3, 4]]⟩, ⟨"z", [[5]]⟩], ["b", "a"], 2⟩
      (firstSets ⟨"ε", [⟨"S", [[3, 2], []]⟩], ["x"], 2⟩)
      (followSets ⟨"ε", [⟨"S", [[3, 2], []]⟩], ["x"], 2⟩ (firstSets ⟨"ε", [⟨"S", [[3, 2], []]⟩], ["x"], 2⟩)) =
      some ⟨"ε", [⟨"S", true, ["z", "ε"], ["$"]⟩, ⟨"z", false, ["z"], []⟩], [⟨"b", []⟩, ⟨"a", []⟩]⟩ := by
    decide +kernel
  obtain ⟨declared, -, -, -, rows, -⟩ := setsReport_canonical accepted found
  exact ⟨_, _, _, accepted, accepted', found, rfl, declared, rows⟩

end Grammar

end Lookahead
