/-!
Repetition of a growing step until it adds nothing. A step is repeated while it makes its argument
larger, and never beyond the bound on sizes that its caller states, which ends every run.
-/

namespace Lookahead

structure Saturation (α : Type) where
  /-- Counts every step, also the last one, which adds nothing. -/
  passes : Nat
  result : α
deriving DecidableEq

def saturate {α : Type} (step : α → α) (size : α → Nat) (bound : Nat) (a : α) : Saturation α :=
  let next := step a
  if _ : size a < size next ∧ size next ≤ bound then
    let rest := saturate step size bound next
    { rest with passes := rest.passes + 1 }
  else ⟨1, next⟩
termination_by bound - size a
decreasing_by
  change bound - size next < bound - size a
  omega

namespace Saturation

variable {α : Type} {step : α → α} {size : α → Nat} {bound : Nat}

theorem grows {a : α} (larger : size a < size (step a)) (within : size (step a) ≤ bound) :
    saturate step size bound a =
      ⟨(saturate step size bound (step a)).passes + 1, (saturate step size bound (step a)).result⟩ := by
  rw [saturate]
  simp [larger, within]

theorem stops {a : α} (same : ¬ size a < size (step a)) :
    saturate step size bound a = ⟨1, step a⟩ := by
  rw [saturate]
  simp [same]

/-- What every step keeps holds of the result. -/
theorem keeps {motive : α → Prop} (kept : ∀ a, motive a → motive (step a)) {a : α}
    (first : motive a) : motive (saturate step size bound a).result := by
  fun_induction saturate step size bound a with
  | case1 a _ _ _ ih => exact ih (kept a first)
  | case2 a _ _ => exact kept a first

/-- Where the bound holds throughout, the result comes from a step that added nothing. -/
theorem settled {motive : α → Prop} (kept : ∀ a, motive a → motive (step a))
    (bounded : ∀ a, motive a → size a ≤ bound) {a : α} (first : motive a) :
    ∃ b, motive b ∧ ¬ size b < size (step b) ∧
      (saturate step size bound a).result = step b := by
  fun_induction saturate step size bound a with
  | case1 a _ _ _ ih => exact ih (kept a first)
  | case2 a _ stop =>
    exact ⟨a, first, fun larger => stop ⟨larger, bounded _ (kept a first)⟩, rfl⟩

end Saturation

end Lookahead
