import Lookahead.Saturation
import Mathlib.Data.List.Forall2
import Mathlib.Logic.Function.Iterate

/-!
Repetition of a growing step as iteration, and passes that are made of several growing steps: when a
whole pass adds nothing, then none of its steps has changed anything.
-/

namespace Lookahead

namespace Saturation

variable {α : Type} {step : α → α} {size : α → Nat} {bound : Nat}

/-- A run whose bound holds throughout ends with the first step that adds nothing. -/
theorem exists_eq_iterate {motive : α → Prop} (kept : ∀ a, motive a → motive (step a))
    (bounded : ∀ a, motive a → size a ≤ bound) {a : α} (first : motive a) :
    ∃ n, saturate step size bound a = ⟨n + 1, step^[n + 1] a⟩ ∧ motive (step^[n] a) ∧
      ¬ size (step^[n] a) < size (step^[n + 1] a) ∧
      ∀ k < n, size (step^[k] a) < size (step^[k + 1] a) := by
  fun_induction saturate step size bound a with
  | case1 a next within rest ih =>
    obtain ⟨n, same, reached, still, grows⟩ := ih (kept a first)
    refine ⟨n + 1, ?_, reached, still, ?_⟩
    · rw [show rest = _ from same]
      rfl
    · intro k early
      cases k with
      | zero => exact within.1
      | succ k => exact grows k (Nat.lt_of_succ_lt_succ early)
  | case2 a next stop =>
    exact ⟨0, rfl, first, fun larger => stop ⟨larger, bounded _ (kept a first)⟩, by simp⟩

/-- Two steps that agree wherever the run comes give the same run. -/
theorem congr_of_keeps {step' : α → α} {motive : α → Prop} (kept : ∀ a, motive a → motive (step a))
    (same : ∀ a, motive a → step a = step' a) {a : α} (first : motive a) :
    saturate step size bound a = saturate step' size bound a := by
  fun_induction saturate step size bound a with
  | case1 a next within rest ih =>
    have here : next = step' a := same a first
    rw [here] at within
    rw [show rest = _ from ih (kept a first), here]
    exact (grows within.1 within.2).symm
  | case2 a next stop =>
    have here : next = step' a := same a first
    rw [here] at stop
    rw [saturate, dif_neg stop, here]

/-- A run is the image of another one where the image of each of its steps is a step. -/
theorem eq_image {β : Type} {step' : β → β} {size' : β → Nat} (image : α → β)
    (same : ∀ a, image (step a) = step' (image a)) (sized : ∀ a, size' (image a) = size a) (a : α) :
    saturate step' size' bound (image a) =
      ⟨(saturate step size bound a).passes, image (saturate step size bound a).result⟩ := by
  fun_induction saturate step size bound a with
  | case1 a next within rest ih =>
    rw [← sized, ← sized, same] at within
    rw [grows within.1 within.2, ← same, ih]
  | case2 a next stop =>
    rw [← sized, ← sized, same] at stop
    rw [saturate, dif_neg stop, ← same]

end Saturation

section Passes

variable {α β : Type} {step : α → β → α} {size : α → Nat} {motive : α → Prop} {l : List β}

theorem foldl_keeps (kept : ∀ a, ∀ b ∈ l, motive a → motive (step a b)) {a : α} (first : motive a) :
    motive (l.foldl step a) := by
  induction l generalizing a with
  | nil => exact first
  | cons b rest ih =>
    have later := kept a b List.mem_cons_self first
    exact ih (fun a b member => kept a b (List.mem_cons_of_mem _ member)) later

theorem size_le_foldl (kept : ∀ a, ∀ b ∈ l, motive a → motive (step a b))
    (grows : ∀ a, ∀ b ∈ l, motive a → size a ≤ size (step a b)) {a : α} (first : motive a) :
    size a ≤ size (l.foldl step a) := by
  have both : motive (l.foldl step a) ∧ size a ≤ size (l.foldl step a) := by
    refine foldl_keeps (motive := fun c => motive c ∧ size a ≤ size c) ?_ ⟨first, Nat.le_refl _⟩
    intro c b member holds
    exact ⟨kept c b member holds.1, Nat.le_trans holds.2 (grows c b member holds.1)⟩
  exact both.2

theorem foldl_eq_self_of_size_le (size : α → Nat)
    (kept : ∀ a, ∀ b ∈ l, motive a → motive (step a b))
    (grows : ∀ a, ∀ b ∈ l, motive a → size a ≤ size (step a b))
    (still : ∀ a, ∀ b ∈ l, motive a → size (step a b) ≤ size a → step a b = a) {a : α}
    (first : motive a) (small : size (l.foldl step a) ≤ size a) :
    l.foldl step a = a ∧ ∀ b ∈ l, step a b = a := by
  induction l generalizing a with
  | nil => exact ⟨rfl, by simp⟩
  | cons b rest ih =>
    have keptRest (a : α) (b : β) (member : b ∈ rest) := kept a b (List.mem_cons_of_mem _ member)
    have growsRest (a : α) (b : β) (member : b ∈ rest) := grows a b (List.mem_cons_of_mem _ member)
    have stillRest (a : α) (b : β) (member : b ∈ rest) := still a b (List.mem_cons_of_mem _ member)
    have later := size_le_foldl keptRest growsRest (kept a b List.mem_cons_self first)
    have unchanged : step a b = a :=
      still a b List.mem_cons_self first (Nat.le_trans later small)
    rw [List.foldl_cons, unchanged] at small ⊢
    obtain ⟨whole, each⟩ := ih keptRest growsRest stillRest first small
    refine ⟨whole, ?_⟩
    intro other member
    rcases List.mem_cons.1 member with rfl | inside
    · exact unchanged
    · exact each other inside

/-- Two folds in step: elements that correspond do the same to every state that occurs. -/
theorem foldl_eq_of_forall₂ {γ : Type} {step' : α → γ → α} {related : β → γ → Prop} {l' : List γ}
    (lists : List.Forall₂ related l l') (kept : ∀ a, ∀ b ∈ l, motive a → motive (step a b))
    (same : ∀ a b c, related b c → motive a → step a b = step' a c) {a : α} (first : motive a) :
    l.foldl step a = l'.foldl step' a := by
  induction lists generalizing a with
  | nil => rfl
  | @cons b c rest rest' holds _ ih =>
    have later := ih (fun a b member => kept a b (List.mem_cons_of_mem _ member))
      (kept a b List.mem_cons_self first)
    rw [List.foldl_cons, List.foldl_cons, later, same a b c holds first]

end Passes

end Lookahead
