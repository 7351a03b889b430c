import Lookahead.Json.Fault

/-!
Readers take the characters that are left of a document, and give what they read together with the
characters that are left after it. A reader that always takes something can be repeated.
-/

namespace Lookahead.Json

/-- What a successful reader leaves is shorter than what it was given. -/
def Progresses {α : Type} (read : List Char → Except Fault (α × List Char)) : Prop :=
  ∀ cs a rest, read cs = .ok (a, rest) → rest.length < cs.length

theorem map_eq_ok {ε α β : Type} {f : α → β} {result : Except ε α} {b : β} :
    result.map f = .ok b ↔ ∃ a, result = .ok a ∧ f a = b := by
  cases result <;> simp [Except.map]

end Lookahead.Json
