import Lookahead.IndexMap
import Mathlib.Data.Finset.Prod
import Mathlib.Data.List.Nodup

/-!
The member count of a map as the number of pairs of an index and a member of its set. Maps that only
gain members are equal in their members as soon as the count has not grown.
-/

namespace Lookahead

namespace IndexSet

def toFinset (s : IndexSet) : Finset Nat := s.toList.toFinset

@[simp] theorem mem_toFinset {s : IndexSet} {i : Nat} : i ∈ s.toFinset ↔ i ∈ s := by
  simp [toFinset]

theorem nodup_toList (s : IndexSet) : s.toList.Nodup := s.increasing.imp Nat.ne_of_lt

theorem card_toFinset (s : IndexSet) : s.toFinset.card = s.size :=
  List.toFinset_card_of_nodup s.nodup_toList

theorem eq_of_subset_of_size_le {s t : IndexSet} (inside : ∀ i ∈ s, i ∈ t)
    (small : t.size ≤ s.size) : s = t := by
  rw [← card_toFinset, ← card_toFinset] at small
  have included : s.toFinset ⊆ t.toFinset := by
    intro i member
    exact mem_toFinset.2 (inside i (mem_toFinset.1 member))
  have same := Finset.eq_of_subset_of_card_le included small
  ext i
  rw [← mem_toFinset, same, mem_toFinset]

end IndexSet

namespace IndexMap

theorem mem_keys_iff {α : Type} {m : IndexMap α} {i : Nat} : i ∈ m.keys ↔ (m.get? i).isSome := by
  simp only [keys, Option.isSome_iff_exists, get?_eq_some_iff, List.mem_map, Prod.exists, exists_and_right,
    exists_eq_right]

theorem size_eq_card {α : Type} {m : IndexMap α} {indices : Finset Nat}
    (same : ∀ i, (m.get? i).isSome ↔ i ∈ indices) : m.size = indices.card := by
  have distinct : m.keys.Nodup := by
    exact (List.pairwise_map.2 m.increasing).imp Nat.ne_of_lt
  have keyed : m.keys.toFinset = indices := by
    ext i
    rw [List.mem_toFinset, mem_keys_iff, same]
  rw [← keyed, List.toFinset_card_of_nodup distinct, keys, List.length_map]
  rfl

/-- An index without an entry has the empty set. -/
def setOf (m : IndexMap IndexSet) (i : Nat) : IndexSet := (m.get? i).getD ∅

theorem mem_setOf {m : IndexMap IndexSet} {i j : Nat} :
    j ∈ m.setOf i ↔ ∃ s, m.get? i = some s ∧ j ∈ s := by
  unfold setOf
  cases m.get? i <;> simp

theorem setOf_insert (m : IndexMap IndexSet) (i j : Nat) (s : IndexSet) :
    (m.insert i s).setOf j = if i = j then s else m.setOf j := by
  unfold setOf
  rw [get?_insert]
  split <;> rfl

private def pairs (m : IndexMap IndexSet) : List (Nat × Nat) :=
  m.entries.flatMap fun entry => entry.2.toList.map (entry.1, ·)

private theorem mem_pairs {m : IndexMap IndexSet} {i j : Nat} :
    (i, j) ∈ m.pairs ↔ j ∈ m.setOf i := by
  simp only [pairs, mem_setOf, get?_eq_some_iff, List.mem_flatMap, List.mem_map, Prod.mk.injEq,
    exists_eq_right_right, IndexSet.mem_toList]
  constructor
  · intro given
    obtain ⟨⟨key, s⟩, entry, member, rfl⟩ := given
    exact ⟨s, entry, member⟩
  · intro given
    obtain ⟨s, entry, member⟩ := given
    exact ⟨(i, s), entry, member, rfl⟩

private theorem nodup_pairs (m : IndexMap IndexSet) : m.pairs.Nodup := by
  rw [pairs, List.nodup_flatMap]
  constructor
  · intro entry _
    exact entry.2.nodup_toList.map (Prod.mk_right_injective entry.1)
  · refine m.increasing.imp ?_
    intro first second below pair left right
    obtain ⟨i, -, rfl⟩ := List.mem_map.1 left
    obtain ⟨j, -, same⟩ := List.mem_map.1 right
    exact Nat.ne_of_gt below (Prod.mk.inj same).1

private theorem length_pairs (m : IndexMap IndexSet) : m.pairs.length = m.memberCount := by
  unfold pairs memberCount
  induction m.entries with
  | nil => rfl
  | cons entry rest ih =>
    rw [List.flatMap_cons, List.length_append, List.length_map, ih]
    rfl

def members (m : IndexMap IndexSet) : Finset (Nat × Nat) := m.pairs.toFinset

@[simp] theorem mem_members {m : IndexMap IndexSet} {i j : Nat} :
    (i, j) ∈ m.members ↔ j ∈ m.setOf i := by
  rw [members, List.mem_toFinset, mem_pairs]

theorem card_members (m : IndexMap IndexSet) : m.members.card = m.memberCount := by
  rw [members, List.toFinset_card_of_nodup m.nodup_pairs, length_pairs]

private theorem members_subset {m n : IndexMap IndexSet}
    (inside : ∀ i, ∀ j ∈ m.setOf i, j ∈ n.setOf i) : m.members ⊆ n.members := by
  intro pair member
  obtain ⟨i, j⟩ := pair
  exact mem_members.2 (inside i j (mem_members.1 member))

theorem memberCount_le {m n : IndexMap IndexSet} (inside : ∀ i, ∀ j ∈ m.setOf i, j ∈ n.setOf i) :
    m.memberCount ≤ n.memberCount := by
  rw [← card_members, ← card_members]
  exact Finset.card_le_card (members_subset inside)

theorem setOf_eq_of_memberCount_le {m n : IndexMap IndexSet}
    (inside : ∀ i, ∀ j ∈ m.setOf i, j ∈ n.setOf i) (small : n.memberCount ≤ m.memberCount)
    (i : Nat) : m.setOf i = n.setOf i := by
  rw [← card_members, ← card_members] at small
  have same := Finset.eq_of_subset_of_card_le (members_subset inside) small
  ext j
  rw [← mem_members, same, mem_members]

theorem memberCount_le_mul {m : IndexMap IndexSet} {keys values : Finset Nat}
    (inside : ∀ i, ∀ j ∈ m.setOf i, i ∈ keys ∧ j ∈ values) :
    m.memberCount ≤ keys.card * values.card := by
  rw [← card_members, ← Finset.card_product]
  apply Finset.card_le_card
  intro pair member
  obtain ⟨i, j⟩ := pair
  exact Finset.mem_product.2 (inside i j (mem_members.1 member))

end IndexMap

end Lookahead
