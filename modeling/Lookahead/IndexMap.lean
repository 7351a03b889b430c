import Lookahead.IndexSet

/-!
Finite maps from symbol indices, kept as lists of entries with strictly increasing indices, so two
maps with the same look-ups are equal (`IndexMap.ext`).
-/

namespace Lookahead

structure IndexMap (α : Type) where
  entries : List (Nat × α)
  increasing : entries.Pairwise (·.1 < ·.1)
deriving DecidableEq

namespace IndexMap

variable {α : Type}

private def find (i : Nat) : List (Nat × α) → Option α
  | [] => none
  | (j, a) :: rest => if j = i then some a else find i rest

def get? (m : IndexMap α) (i : Nat) : Option α := find i m.entries

private def put (i : Nat) (a : α) : List (Nat × α) → List (Nat × α)
  | [] => [(i, a)]
  | (j, b) :: rest =>
    if j < i then (j, b) :: put i a rest
    else if j = i then (i, a) :: rest
    else (i, a) :: (j, b) :: rest

private theorem mem_put {i : Nat} {a : α} {entries : List (Nat × α)} {entry : Nat × α}
    (member : entry ∈ put i a entries) : entry = (i, a) ∨ entry ∈ entries := by
  induction entries with
  | nil => simpa [put] using member
  | cons head rest ih =>
    rw [put] at member
    split at member
    · rcases List.mem_cons.1 member with rfl | inside
      · exact .inr List.mem_cons_self
      · exact (ih inside).imp_right (List.mem_cons_of_mem _)
    · split at member
      · exact (List.mem_cons.1 member).imp_right (List.mem_cons_of_mem _)
      · exact List.mem_cons.1 member

private theorem put_increasing {i : Nat} {a : α} {entries : List (Nat × α)}
    (increasing : entries.Pairwise (·.1 < ·.1)) : (put i a entries).Pairwise (·.1 < ·.1) := by
  induction entries with
  | nil => exact List.pairwise_singleton _ _
  | cons head rest ih =>
    rw [List.pairwise_cons] at increasing
    rw [put]
    split
    · rw [List.pairwise_cons]
      refine ⟨fun entry member => ?_, ih increasing.2⟩
      rcases mem_put member with rfl | old
      · assumption
      · exact increasing.1 entry old
    · rename_i above
      split
      · rename_i same
        rw [List.pairwise_cons]
        exact ⟨fun entry member => same ▸ increasing.1 entry member, increasing.2⟩
      · rename_i different
        have below : i < head.1 := Nat.lt_of_le_of_ne (Nat.not_lt.1 above) (Ne.symm different)
        rw [List.pairwise_cons, List.pairwise_cons]
        refine ⟨fun entry member => ?_, increasing⟩
        rcases List.mem_cons.1 member with rfl | inside
        · exact below
        · exact Nat.lt_trans below (increasing.1 entry inside)

/-- The value of an index that the map has already is replaced. -/
def insert (m : IndexMap α) (i : Nat) (a : α) : IndexMap α :=
  ⟨put i a m.entries, put_increasing m.increasing⟩

def empty : IndexMap α := ⟨[], .nil⟩

instance : EmptyCollection (IndexMap α) := ⟨empty⟩

def size (m : IndexMap α) : Nat := m.entries.length

/-- The number of members of all sets of a map. -/
def memberCount (m : IndexMap IndexSet) : Nat :=
  m.entries.foldr (fun entry n => entry.2.size + n) 0

def keys (m : IndexMap α) : List Nat := m.entries.map (·.1)

@[simp] theorem get?_empty (i : Nat) : (∅ : IndexMap α).get? i = none := rfl

private theorem find_put {i j : Nat} {a : α} {entries : List (Nat × α)}
    (increasing : entries.Pairwise (·.1 < ·.1)) :
    find j (put i a entries) = if i = j then some a else find j entries := by
  induction entries with
  | nil => rfl
  | cons head rest ih =>
    have later := ih (List.pairwise_cons.1 increasing).2
    rw [put]
    split
    · rename_i below
      rw [find, find, later]
      split
      · rename_i here
        rw [if_neg (here ▸ Nat.ne_of_gt below)]
      · rfl
    · split
      · rename_i same
        rw [find, find, same]
        split <;> rfl
      · rw [find]

theorem get?_insert (m : IndexMap α) (i j : Nat) (a : α) :
    (m.insert i a).get? j = if i = j then some a else m.get? j := find_put m.increasing

@[simp] theorem get?_insert_self (m : IndexMap α) (i : Nat) (a : α) :
    (m.insert i a).get? i = some a := by simp [get?_insert]

private theorem find_eq_some {i : Nat} {a : α} {entries : List (Nat × α)}
    (increasing : entries.Pairwise (·.1 < ·.1)) :
    find i entries = some a ↔ (i, a) ∈ entries := by
  induction entries with
  | nil => simp [find]
  | cons head rest ih =>
    rw [List.pairwise_cons] at increasing
    rw [find, List.mem_cons]
    split
    · rename_i here
      refine ⟨fun found => .inl (Prod.ext here.symm (Option.some.inj found).symm), ?_⟩
      rintro (equal | inside)
      · exact congrArg (some ·.2) equal.symm
      · exact absurd here (Nat.ne_of_lt (increasing.1 _ inside))
    · rename_i elsewhere
      rw [ih increasing.2]
      refine ⟨.inr, ?_⟩
      rintro (equal | inside)
      · exact absurd (congrArg (·.1) equal).symm elsewhere
      · exact inside

theorem get?_eq_some_iff {m : IndexMap α} {i : Nat} {a : α} :
    m.get? i = some a ↔ (i, a) ∈ m.entries := find_eq_some m.increasing

private theorem eq_of_same_entries {l m : List (Nat × α)} (left : l.Pairwise (·.1 < ·.1))
    (right : m.Pairwise (·.1 < ·.1)) (same : ∀ entry, entry ∈ l ↔ entry ∈ m) : l = m := by
  induction l generalizing m with
  | nil => cases m with
    | nil => rfl
    | cons y ys => simpa using (same y)
  | cons x xs ih => cases m with
    | nil => simpa using (same x)
    | cons y ys =>
      rw [List.pairwise_cons] at left right
      have heads : x = y := by
        rcases List.mem_cons.1 ((same x).1 List.mem_cons_self) with equal | inside
        · exact equal
        · rcases List.mem_cons.1 ((same y).2 List.mem_cons_self) with equal | outside
          · exact equal.symm
          · exact absurd (left.1 y outside) (Nat.lt_asymm (right.1 x inside))
      subst heads
      congr 1
      refine ih left.2 right.2 fun entry => ⟨fun member => ?_, fun member => ?_⟩
      · refine (List.mem_cons.1 ((same entry).1 (List.mem_cons_of_mem x member))).resolve_left ?_
        exact fun equal => Nat.lt_irrefl _ (equal ▸ left.1 entry member)
      · refine (List.mem_cons.1 ((same entry).2 (List.mem_cons_of_mem x member))).resolve_left ?_
        exact fun equal => Nat.lt_irrefl _ (equal ▸ right.1 entry member)

@[ext] theorem ext {m n : IndexMap α} (same : ∀ i, m.get? i = n.get? i) : m = n := by
  obtain ⟨l, left⟩ := m
  obtain ⟨k, right⟩ := n
  congr 1
  refine eq_of_same_entries left right fun entry => ?_
  have found (a : α) := congrArg (· = some a) (same entry.1)
  simp only [get?, find_eq_some left, find_eq_some right] at found
  exact iff_of_eq (found entry.2)

end IndexMap

end Lookahead
