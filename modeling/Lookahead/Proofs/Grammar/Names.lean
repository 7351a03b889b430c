import Lookahead.Proofs.Grammar.Layout

/-!
Names and indices of one grammar. Where no two symbols share a name, names and indices determine each
other, and a set has as many names as members. Accepted grammars have such names.
-/

namespace Lookahead.Grammar

def names (g : Grammar) : List String := g.symbols.map (Symbol.name g.epsilon)

variable {g : Grammar}

theorem names_eq (g : Grammar) :
    g.names = g.epsilon :: endMark :: (g.nonTerminals.map (·.name) ++ g.terminals) := by
  simp [names, symbols, Symbol.name, Function.comp_def]

theorem length_names (g : Grammar) : g.names.length = g.size := by
  rw [names, List.length_map, length_symbols]

theorem name?_eq_getElem? (g : Grammar) (i : Nat) : g.name? i = g.names[i]? := by
  rw [name?, symbol?_eq_getElem?, names, List.getElem?_map]

theorem name?_of_symbol? {i : Nat} {symbol : Symbol} (found : g.symbol? i = some symbol) :
    g.name? i = some (symbol.name g.epsilon) := by
  rw [name?, found, Option.map_some]

theorem name?_epsilonIndex (g : Grammar) : g.name? epsilonIndex = some g.epsilon := rfl

theorem name?_endMarkIndex (g : Grammar) : g.name? endMarkIndex = some endMark := rfl

theorem indexOf?_eq_idxOf? (g : Grammar) (name : String) : g.indexOf? name = g.names.idxOf? name := by
  have declared : g.nonTerminals.findIdx? (fun n => decide (n.name = name)) =
      (g.nonTerminals.map (·.name)).idxOf? name := by
    rw [List.idxOf?, List.findIdx?_map]
    rfl
  have appended : (g.nonTerminals.map (·.name) ++ g.terminals).idxOf? name =
      ((g.nonTerminals.map (·.name)).idxOf? name).or
        ((g.terminals.idxOf? name).map (· + g.nonTerminals.length)) := by
    rw [List.idxOf?, List.findIdx?_append, List.length_map]
  rw [names_eq, List.idxOf?_cons, List.idxOf?_cons, appended, indexOf?, declared]
  simp only [beq_iff_eq, eq_comm (b := name)]
  by_cases hidden : name = g.epsilon
  · rw [if_pos hidden, if_pos hidden, epsilonIndex]
  rw [if_neg hidden, if_neg hidden]
  by_cases last : name = endMark
  · rw [if_pos last, if_pos last]
    rfl
  rw [if_neg last, if_neg last]
  cases (g.nonTerminals.map (·.name)).idxOf? name with
  | some i =>
    simp only [Option.some_or, Option.map_some, markerCount, Option.some.injEq]
    omega
  | none =>
    simp only [Option.none_or, Option.map_map]
    congr 1
    funext i
    simp only [markerCount, Function.comp_apply]
    omega

theorem isSome_name?_iff (g : Grammar) (i : Nat) : (g.name? i).isSome ↔ i < g.size := by
  rw [name?_eq_getElem?, isSome_getElem?, length_names]

theorem name?_eq_nameOf {i : Nat} (inside : i < g.size) : g.name? i = some (g.nameOf i) := by
  obtain ⟨name, found⟩ := Option.isSome_iff_exists.1 ((isSome_name?_iff g i).2 inside)
  rw [nameOf, found, Option.getD_some]

theorem name?_of_indexOf? {name : String} {i : Nat} (found : g.indexOf? name = some i) :
    g.name? i = some name := by
  rw [indexOf?_eq_idxOf?, List.idxOf?_eq_some_iff] at found
  obtain ⟨bound, same, -⟩ := found
  rw [name?_eq_getElem?, List.getElem?_eq_getElem bound, same]

theorem mem_of_indexOf? {name : String} {i : Nat} (found : g.indexOf? name = some i)
    (nonTerminal : g.isNonTerminal i) : name ∈ g.nonTerminals.map (·.name) := by
  obtain ⟨n, entry⟩ := Option.isSome_iff_exists.1 nonTerminal
  have named := name?_of_indexOf? found
  rw [name?_of_symbol? (symbol?_of_nonTerminal? entry)] at named
  rw [nonTerminal?] at entry
  split at entry
  · contradiction
  · exact List.mem_map.2 ⟨n, List.mem_of_getElem? entry, Option.some.inj named⟩

theorem indexOf?_eq_some_iff (distinct : g.names.Nodup) {name : String} {i : Nat} :
    g.indexOf? name = some i ↔ g.name? i = some name := by
  refine ⟨name?_of_indexOf?, ?_⟩
  rw [indexOf?_eq_idxOf?, name?_eq_getElem?, List.idxOf?_eq_some_iff, List.getElem?_eq_some_iff]
  · intro found
    obtain ⟨bound, same⟩ := found
    refine ⟨bound, same, ?_⟩
    intro j before other
    have equal := (List.Nodup.getElem_inj_iff distinct).1 (other.trans same.symm)
    omega

theorem eq_of_name? (distinct : g.names.Nodup) {i j : Nat} {name : String}
    (first : g.name? i = some name) (second : g.name? j = some name) : i = j :=
  Option.some.inj (((indexOf?_eq_some_iff distinct).2 first).symm.trans
    ((indexOf?_eq_some_iff distinct).2 second))

section Sorting

theorem sortNames_perm (names : List String) : (sortNames names).Perm names := List.mergeSort_perm _ _

theorem pairwise_sortNames (names : List String) : (sortNames names).Pairwise (· ≤ ·) := by
  have ordered (a b : String) : (!decide (b < a)) = true ↔ a ≤ b := by
    rw [Bool.not_eq_true', decide_eq_false_iff_not, String.not_lt]
  have sorted : (sortNames names).Pairwise fun a b => (!decide (b < a)) = true := by
    refine List.pairwise_mergeSort ?_ ?_ names
    · intro a b c
      simp only [ordered]
      exact String.le_trans
    · intro a b
      simp only [Bool.or_eq_true, ordered]
      exact String.le_total a b
  simpa only [ordered] using sorted

theorem sortNames_eq_of_perm {left right : List String} (permuted : left.Perm right) :
    sortNames left = sortNames right := by
  have same := (sortNames_perm left).trans (permuted.trans (sortNames_perm right).symm)
  exact same.eq_of_pairwise (fun _ _ _ _ => String.le_antisymm) (pairwise_sortNames left)
    (pairwise_sortNames right)

end Sorting

theorem mapM_eq_some_map {α β : Type} {f : α → Option β} {h : α → β} {l : List α}
    (each : ∀ a ∈ l, f a = some (h a)) : l.mapM f = some (l.map h) := by
  induction l with
  | nil => rfl
  | cons a rest ih =>
    rw [List.mapM_cons, each a List.mem_cons_self, ih fun b member => each b (List.mem_cons_of_mem _ member)]
    rfl

theorem mapM_map_eq_some {α β : Type} {f : α → β} {h : β → Option α} {l : List α}
    (inverse : ∀ a ∈ l, h (f a) = some a) : (l.map f).mapM h = some l := by
  have whole : l.mapM (h ∘ f) = some (l.map id) := mapM_eq_some_map inverse
  rw [List.mapM_map, whole, List.map_id]

theorem mapM_name? {indices : List Nat} (inside : ∀ i ∈ indices, i < g.size) :
    indices.mapM g.name? = some (indices.map g.nameOf) :=
  mapM_eq_some_map fun i member => name?_eq_nameOf (inside i member)

theorem namesOf?_eq {s : IndexSet} (inside : ∀ i ∈ s, i < g.size) :
    g.namesOf? s = some (sortNames (s.toList.map g.nameOf)) := by
  rw [namesOf?, mapM_name? inside, Option.map_some]

theorem nodup_map_nameOf (distinct : g.names.Nodup) {s : IndexSet} (inside : ∀ i ∈ s, i < g.size) :
    (s.toList.map g.nameOf).Nodup := by
  refine List.Nodup.map_on ?_ (s.increasing.imp Nat.ne_of_lt)
  intro i first j second same
  have named := name?_eq_nameOf (inside j second)
  rw [← same] at named
  exact eq_of_name? distinct (name?_eq_nameOf (inside i first)) named

theorem mem_map_nameOf {indices : List Nat} (inside : ∀ i ∈ indices, i < g.size) {name : String} :
    name ∈ indices.map g.nameOf ↔ ∃ i ∈ indices, g.name? i = some name := by
  rw [List.mem_map]
  constructor
  · intro given
    obtain ⟨i, member, rfl⟩ := given
    exact ⟨i, member, name?_eq_nameOf (inside i member)⟩
  · intro given
    obtain ⟨i, member, found⟩ := given
    exact ⟨i, member, Option.some.inj ((name?_eq_nameOf (inside i member)).symm.trans found)⟩

/-- The names of a set: none is missing, none comes twice. -/
structure Lists (g : Grammar) (names : List String) (s : IndexSet) : Prop where
  nodup : names.Nodup
  length : names.length = s.size
  mem : ∀ name, name ∈ names ↔ ∃ i ∈ s, g.name? i = some name

theorem lists_of_perm (distinct : g.names.Nodup) {s : IndexSet} (inside : ∀ i ∈ s, i < g.size)
    {names : List String} (permuted : names.Perm (s.toList.map g.nameOf)) : g.Lists names s := by
  refine ⟨?_, ?_, ?_⟩
  · exact permuted.nodup_iff.2 (nodup_map_nameOf distinct inside)
  · rw [permuted.length_eq, List.length_map]
    rfl
  · intro name
    rw [permuted.mem_iff, mem_map_nameOf inside]
    rfl

theorem exists_namesOf? (distinct : g.names.Nodup) {s : IndexSet} (inside : ∀ i ∈ s, i < g.size) :
    ∃ names, g.namesOf? s = some names ∧ g.Lists names s :=
  ⟨_, namesOf?_eq inside, lists_of_perm distinct inside (sortNames_perm _)⟩

/-- Sets of two grammars with the same names are listed in the same way. -/
theorem namesOf?_congr {g' : Grammar} (distinct : g.names.Nodup) (distinct' : g'.names.Nodup)
    {s t : IndexSet} (inside : ∀ i ∈ s, i < g.size) (inside' : ∀ i ∈ t, i < g'.size)
    (same : ∀ name, (∃ i ∈ s, g.name? i = some name) ↔ ∃ i ∈ t, g'.name? i = some name) :
    (g.namesOf? s).isSome ∧ g.namesOf? s = g'.namesOf? t := by
  rw [namesOf?_eq inside, namesOf?_eq inside']
  refine ⟨rfl, ?_⟩
  congr 1
  apply sortNames_eq_of_perm
  rw [List.perm_ext_iff_of_nodup (nodup_map_nameOf distinct inside)
    (nodup_map_nameOf distinct' inside')]
  intro name
  rw [mem_map_nameOf inside, mem_map_nameOf inside']
  exact same name

section Accepted

variable {rules : List Rule} {start epsilon : String}

theorem names_ofRules (rules : List Rule) (start epsilon : String) :
    (ofRules rules start epsilon).names =
      epsilon :: endMark :: (leftSides rules ++ terminalTokens rules epsilon) := by
  simp [names_eq, ofRules, Function.comp_def]

theorem mem_terminalTokens {token : String} : token ∈ terminalTokens rules epsilon ↔
    token ∈ tokens rules ∧ token ≠ epsilon ∧ token ∉ leftSides rules := by
  simp [terminalTokens, List.mem_eraseDups, isTerminalToken]

theorem nodup_names_ofRules (acceptable : Acceptable rules start epsilon) :
    (ofRules rules start epsilon).names.Nodup := by
  have left_free {name : String} (member : name ∈ leftSides rules) :
      name ≠ epsilon ∧ name ≠ endMark := by
    obtain ⟨rule, listed, rfl⟩ := mem_leftSides.1 member
    exact acceptable.left_free rule listed
  rw [names_ofRules]
  simp only [List.nodup_cons, List.mem_cons, List.mem_append, not_or, List.nodup_append]
  refine ⟨⟨acceptable.epsilon_free, ?_, ?_⟩, ⟨?_, ?_⟩, nodup_eraseDups _, nodup_eraseDups _, ?_⟩
  · exact fun member => (left_free member).1 rfl
  · exact fun member => (mem_terminalTokens.1 member).2.1 rfl
  · exact fun member => (left_free member).2 rfl
  · exact fun member => acceptable.token_free _ (mem_terminalTokens.1 member).1 rfl
  · intro name declared other terminal same
    exact (mem_terminalTokens.1 terminal).2.2 (same ▸ declared)

theorem nodup_names_of_build {g : Grammar} (accepted : build rules start epsilon = .ok g) :
    g.names.Nodup := by
  obtain ⟨acceptable, rfl⟩ := build_eq_ok_iff.1 accepted
  exact nodup_names_ofRules acceptable

end Accepted

end Lookahead.Grammar
