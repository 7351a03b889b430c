/-!
Finite sets of symbol indices, kept as strictly increasing lists. The order makes the list of a
set unique, so two sets with the same members are equal (`IndexSet.ext`).
-/

namespace Lookahead

structure IndexSet where
  toList : List Nat
  increasing : toList.Pairwise (· < ·)
deriving DecidableEq

namespace IndexSet

instance : Membership Nat IndexSet where
  mem s i := i ∈ s.toList

instance (i : Nat) (s : IndexSet) : Decidable (i ∈ s) :=
  inferInstanceAs (Decidable (i ∈ s.toList))

@[simp] theorem mem_toList {s : IndexSet} {i : Nat} : i ∈ s.toList ↔ i ∈ s := Iff.rfl

@[simp] theorem mem_mk {l : List Nat} {h : l.Pairwise (· < ·)} {i : Nat} :
    i ∈ (⟨l, h⟩ : IndexSet) ↔ i ∈ l := Iff.rfl

private theorem eq_of_same_members {l m : List Nat} (left : l.Pairwise (· < ·))
    (right : m.Pairwise (· < ·)) (same : ∀ i, i ∈ l ↔ i ∈ m) : l = m := by
  induction l generalizing m with
  | nil => cases m with
    | nil => rfl
    | cons y ys => simpa using (same y)
  | cons x xs ih => cases m with
    | nil => simpa using (same x)
    | cons y ys =>
      rw [List.pairwise_cons] at left right
      have heads : x = y := by
        rcases List.mem_cons.1 ((same x).1 List.mem_cons_self) with equal | inside
        · exact equal
        · rcases List.mem_cons.1 ((same y).2 List.mem_cons_self) with equal | outside
          · exact equal.symm
          · exact absurd (left.1 y outside) (Nat.lt_asymm (right.1 x inside))
      subst heads
      congr 1
      refine ih left.2 right.2 fun i => ⟨fun member => ?_, fun member => ?_⟩
      · exact (List.mem_cons.1 ((same i).1 (List.mem_cons_of_mem x member))).resolve_left
          (Nat.ne_of_gt (left.1 i member))
      · exact (List.mem_cons.1 ((same i).2 (List.mem_cons_of_mem x member))).resolve_left
          (Nat.ne_of_gt (right.1 i member))

@[ext] theorem ext {s t : IndexSet} (same : ∀ i, i ∈ s ↔ i ∈ t) : s = t := by
  obtain ⟨l, left⟩ := s
  obtain ⟨m, right⟩ := t
  congr 1
  exact eq_of_same_members left right same

def empty : IndexSet := ⟨[], .nil⟩

instance : EmptyCollection IndexSet := ⟨empty⟩

instance : Inhabited IndexSet := ⟨∅⟩

@[simp] theorem not_mem_empty (i : Nat) : ¬ i ∈ (∅ : IndexSet) := List.not_mem_nil

def singleton (i : Nat) : IndexSet := ⟨[i], List.pairwise_singleton _ i⟩

instance : Singleton Nat IndexSet := ⟨singleton⟩

@[simp] theorem mem_singleton {i j : Nat} : i ∈ ({j} : IndexSet) ↔ i = j := List.mem_singleton

def size (s : IndexSet) : Nat := s.toList.length

/-- The members below `x`, then `x`, then the rest of both lists as `merged` joins them. -/
private def place (x : Nat) (merged : List Nat → List Nat) : List Nat → List Nat
  | [] => x :: merged []
  | y :: ys =>
    if y < x then y :: place x merged ys
    else if y = x then x :: merged ys
    else x :: merged (y :: ys)

private def merge : List Nat → List Nat → List Nat
  | [], ys => ys
  | x :: xs, ys => place x (merge xs) ys

private theorem mem_place {x i : Nat} {merged : List Nat → List Nat} {p : Prop}
    (members : ∀ ys, i ∈ merged ys ↔ p ∨ i ∈ ys) (ys : List Nat) :
    i ∈ place x merged ys ↔ i = x ∨ p ∨ i ∈ ys := by
  induction ys with
  | nil => simp [place, members]
  | cons y ys ih =>
    rw [place, List.mem_cons]
    split
    · rw [List.mem_cons, ih, or_left_comm (a := i = y), or_left_comm (a := i = y)]
    · split
      · rename_i same
        rw [List.mem_cons, members, same, or_left_comm (a := p), or_self_left]
      · rw [List.mem_cons, members, List.mem_cons]

private theorem mem_merge {i : Nat} (xs ys : List Nat) : i ∈ merge xs ys ↔ i ∈ xs ∨ i ∈ ys := by
  induction xs generalizing ys with
  | nil => simp [merge]
  | cons x xs ih =>
    rw [merge, mem_place (fun ys => ih ys), List.mem_cons, or_assoc]

private theorem place_increasing {x : Nat} {xs : List Nat} (left : (x :: xs).Pairwise (· < ·))
    (ih : ∀ ys, ys.Pairwise (· < ·) → (merge xs ys).Pairwise (· < ·)) (ys : List Nat)
    (right : ys.Pairwise (· < ·)) : (place x (merge xs) ys).Pairwise (· < ·) := by
  rw [List.pairwise_cons] at left
  induction ys with
  | nil =>
    rw [place, List.pairwise_cons]
    refine ⟨fun i member => left.1 i ?_, ih [] .nil⟩
    simpa [mem_merge] using member
  | cons y ys rest =>
    rw [List.pairwise_cons] at right
    rw [place]
    split
    · rw [List.pairwise_cons]
      refine ⟨fun i member => ?_, rest right.2⟩
      rcases (mem_place (mem_merge xs) ys).1 member with rfl | inside | inside
      · assumption
      · exact Nat.lt_trans ‹y < x› (left.1 i inside)
      · exact right.1 i inside
    · rename_i above
      split <;> rw [List.pairwise_cons]
      · rename_i same
        refine ⟨fun i member => ?_, ih ys right.2⟩
        rcases (mem_merge xs ys).1 member with inside | inside
        · exact left.1 i inside
        · exact same ▸ right.1 i inside
      · rename_i different
        refine ⟨fun i member => ?_, ih (y :: ys) (List.pairwise_cons.2 right)⟩
        have below : x < y := by omega
        rcases (mem_merge xs (y :: ys)).1 member with inside | inside
        · exact left.1 i inside
        · rcases List.mem_cons.1 inside with rfl | inside
          · exact below
          · exact Nat.lt_trans below (right.1 i inside)

private theorem merge_increasing {xs ys : List Nat} (left : xs.Pairwise (· < ·))
    (right : ys.Pairwise (· < ·)) : (merge xs ys).Pairwise (· < ·) := by
  induction xs generalizing ys with
  | nil => exact right
  | cons x xs ih =>
    rw [merge]
    exact place_increasing left (fun ys => ih (List.pairwise_cons.1 left).2) ys right

instance : Union IndexSet where
  union s t := ⟨merge s.toList t.toList, merge_increasing s.increasing t.increasing⟩

@[simp] theorem mem_union {s t : IndexSet} {i : Nat} : i ∈ s ∪ t ↔ i ∈ s ∨ i ∈ t :=
  mem_merge s.toList t.toList

def filter (keep : Nat → Bool) (s : IndexSet) : IndexSet :=
  ⟨s.toList.filter keep, s.increasing.filter keep⟩

@[simp] theorem mem_filter {keep : Nat → Bool} {s : IndexSet} {i : Nat} :
    i ∈ s.filter keep ↔ i ∈ s ∧ keep i := List.mem_filter

def erase (s : IndexSet) (i : Nat) : IndexSet := s.filter (· != i)

@[simp] theorem mem_erase {s : IndexSet} {i j : Nat} : i ∈ s.erase j ↔ i ∈ s ∧ i ≠ j := by
  simp [erase]

def insert (i : Nat) (s : IndexSet) : IndexSet := {i} ∪ s

instance : Insert Nat IndexSet := ⟨insert⟩

@[simp] theorem mem_insert {i j : Nat} {s : IndexSet} :
    i ∈ (Insert.insert j s : IndexSet) ↔ i = j ∨ i ∈ s := by
  change i ∈ {j} ∪ s ↔ _
  simp

theorem erase_insert {i : Nat} {s : IndexSet} (fresh : i ∉ s) : (Insert.insert i s : IndexSet).erase i = s := by
  ext j
  simp only [mem_erase, mem_insert]
  constructor
  · rintro ⟨rfl | member, different⟩
    · exact absurd rfl different
    · exact member
  · intro member
    exact ⟨.inr member, fun same => fresh (same ▸ member)⟩

def ofList (l : List Nat) : IndexSet := l.foldl (fun s i => s ∪ {i}) ∅

@[simp] theorem mem_ofList {l : List Nat} {i : Nat} : i ∈ ofList l ↔ i ∈ l := by
  have general (s : IndexSet) : i ∈ l.foldl (fun s i => s ∪ {i}) s ↔ i ∈ s ∨ i ∈ l := by
    induction l generalizing s with
    | nil => simp
    | cons x xs ih => simp [ih, or_assoc]
  simp [ofList, general]

end IndexSet

end Lookahead
