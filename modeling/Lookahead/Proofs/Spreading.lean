import Lookahead.Proofs.MemberCount
import Mathlib.Logic.Function.Iterate
import Mathlib.Order.Monotone.Basic

/-!
How one index spreads over the sets of a map while a pass is repeated. Where the sets that have the index
determine which ones have it after the pass, the first pass that brings it nowhere new is the last one that
could have, so it has arrived everywhere after as many passes as there are sets that can take it.
-/

namespace Lookahead

/-- The places of the sets that have the index. -/
def IndexMap.holders (m : IndexMap IndexSet) (i : Nat) : Set Nat := {j | i ∈ m.setOf j}

theorem IndexMap.memberCount_congr {m n : IndexMap IndexSet} (same : ∀ i, m.holders i = n.holders i) :
    m.memberCount = n.memberCount := by
  have agree (i j : Nat) : j ∈ m.setOf i ↔ j ∈ n.setOf i := Set.ext_iff.1 (same j) i
  apply Nat.le_antisymm
  · exact memberCount_le fun i j member => (agree i j).1 member
  · exact memberCount_le fun i j member => (agree i j).2 member

/-- A pass that looks at nothing but the holders to tell the next ones, all new ones among the keys. -/
structure Spreads {α : Type} (pass : α → α) (motive : α → Prop) (holders : α → Set Nat)
    (keys : Finset Nat) : Prop where
  kept : ∀ a, motive a → motive (pass a)
  grows : ∀ a, motive a → holders a ⊆ holders (pass a)
  within : ∀ a, motive a → holders (pass a) ⊆ holders a ∪ keys
  determined : ∀ a b, motive a → motive b → holders a = holders b → holders (pass a) = holders (pass b)

namespace Spreads

variable {α : Type} {pass : α → α} {motive : α → Prop} {holders : α → Set Nat} {keys : Finset Nat}

theorem motive_iterate (spreads : Spreads pass motive holders keys) {a : α} (first : motive a) (k : Nat) :
    motive (pass^[k] a) := by
  induction k with
  | zero => exact first
  | succ k ih =>
    rw [Function.iterate_succ_apply']
    exact spreads.kept _ ih

open Classical in
private theorem filter_subset (spreads : Spreads pass motive holders keys) {a : α} (here : motive a) :
    keys.filter (· ∈ holders a) ⊆ keys.filter (· ∈ holders (pass a)) :=
  Finset.monotone_filter_right keys fun _ _ member => spreads.grows a here member

open Classical in
private theorem eq_of_card_le (spreads : Spreads pass motive holders keys) {a : α} (here : motive a)
    (few : (keys.filter (· ∈ holders (pass a))).card ≤ (keys.filter (· ∈ holders a)).card) :
    holders (pass a) = holders a := by
  have same := Finset.eq_of_subset_of_card_le (spreads.filter_subset here) few
  apply Set.Subset.antisymm
  · intro key member
    rcases spreads.within a here member with old | inside
    · exact old
    · have counted : key ∈ keys.filter (· ∈ holders (pass a)) := Finset.mem_filter.2 ⟨inside, member⟩
      rw [← same] at counted
      exact (Finset.mem_filter.1 counted).2
  · exact spreads.grows a here

/-- After as many passes as there are keys, the index is wherever it will ever be. -/
theorem holders_iterate_succ (spreads : Spreads pass motive holders keys) {a : α} (first : motive a)
    {k : Nat} (late : keys.card ≤ k) : holders (pass^[k + 1] a) = holders (pass^[k] a) := by
  classical
  let count (k : Nat) : Nat := (keys.filter (· ∈ holders (pass^[k] a))).card
  have reached (k : Nat) : motive (pass^[k] a) := spreads.motive_iterate first k
  have rises : Monotone count := by
    refine monotone_nat_of_le_succ fun k => Finset.card_le_card ?_
    rw [Function.iterate_succ_apply']
    exact spreads.filter_subset (reached k)
  have still (k : Nat) (same : count k = count (k + 1)) :
      holders (pass^[k + 1] a) = holders (pass^[k] a) := by
    simp only [count, Function.iterate_succ_apply'] at same ⊢
    exact spreads.eq_of_card_le (reached k) same.ge
  have stays (k : Nat) (same : count k = count (k + 1)) : count (k + 1) = count (k + 2) := by
    have again := spreads.determined _ _ (reached (k + 1)) (reached k) (still k same)
    simp only [← Function.iterate_succ_apply'] at again
    simp only [count, again]
  have bounded (k : Nat) : count k ≤ keys.card := Finset.card_filter_le _ _
  have settled (k : Nat) (late : keys.card ≤ k) : count k = count keys.card :=
    Nat.stabilises_of_monotone rises bounded stays late
  exact still k ((settled k late).trans (settled (k + 1) (Nat.le_succ_of_le late)).symm)

end Spreads

end Lookahead
