import Lookahead.Proofs.Grammar.Symbols
import Mathlib.Logic.Relation

/-!
Derivation over sentential forms, independent of how lookahead sets are computed. Epsilon stands for
the empty text, so forms do not hold it. Derivations from a sequence split along the sequence.
-/

namespace Lookahead.Grammar

def visible (sequence : List Nat) : List Nat := sequence.filter (· != epsilonIndex)

@[simp] theorem visible_nil : visible [] = [] := rfl

@[simp] theorem visible_append (left right : List Nat) :
    visible (left ++ right) = visible left ++ visible right := List.filter_append left right

theorem visible_cons (symbol : Nat) (rest : List Nat) :
    visible (symbol :: rest) = visible [symbol] ++ visible rest := visible_append [symbol] rest

@[simp] theorem visible_epsilon : visible [epsilonIndex] = [] := rfl

theorem visible_singleton {symbol : Nat} (shown : symbol ≠ epsilonIndex) :
    visible [symbol] = [symbol] := by
  simp [visible, shown]

inductive Rewrites (g : Grammar) : List Nat → List Nat → Prop
  | expand (before after : List Nat) {symbol : Nat} {right : List Nat}
      (has : g.HasProduction symbol right) :
      Rewrites g (before ++ symbol :: after) (before ++ visible right ++ after)

def Derives (g : Grammar) : List Nat → List Nat → Prop := Relation.ReflTransGen g.Rewrites

def Vanishes (g : Grammar) (sequence : List Nat) : Prop := g.Derives (visible sequence) []

def Begins (g : Grammar) (sequence : List Nat) (symbol : Nat) : Prop :=
  ∃ rest, g.Derives (visible sequence) (symbol :: rest)

variable {g : Grammar}

theorem Rewrites.exists_parts {form result : List Nat} (step : g.Rewrites form result) :
    ∃ before symbol right after, form = before ++ symbol :: after ∧ g.HasProduction symbol right ∧
      result = before ++ visible right ++ after := by
  obtain ⟨before, after, has⟩ := step
  exact ⟨before, _, _, after, rfl, has, rfl⟩

theorem Derives.context {form result : List Nat} (before after : List Nat)
    (derived : g.Derives form result) :
    g.Derives (before ++ form ++ after) (before ++ result ++ after) := by
  induction derived with
  | refl => exact .refl
  | tail _ step ih =>
    refine ih.tail ?_
    obtain ⟨left, right, has⟩ := step
    simpa using Rewrites.expand (before ++ left) (right ++ after) has

theorem Derives.append {left left' right right' : List Nat} (first : g.Derives left left')
    (second : g.Derives right right') : g.Derives (left ++ right) (left' ++ right') := by
  have front : g.Derives (left ++ right) (left' ++ right) := by
    simpa using first.context [] right
  have back : g.Derives (left' ++ right) (left' ++ right') := by
    simpa using second.context left' []
  exact front.trans back

theorem append_eq_append_cons {left right before after : List Nat} {symbol : Nat}
    (whole : left ++ right = before ++ symbol :: after) :
    (∃ middle, left = before ++ symbol :: middle ∧ after = middle ++ right) ∨
      ∃ middle, before = left ++ middle ∧ right = middle ++ symbol :: after := by
  rcases List.append_eq_append_iff.1 whole with ⟨middle, start, finish⟩ | ⟨middle, start, finish⟩
  · exact .inr ⟨middle, start, finish⟩
  · cases middle with
    | nil => exact .inr ⟨[], by simpa using start.symm, finish.symm⟩
    | cons head tail =>
      obtain ⟨rfl, rfl⟩ := List.cons.inj finish
      exact .inl ⟨tail, start, rfl⟩

private theorem Rewrites.split {left right result : List Nat}
    (step : g.Rewrites (left ++ right) result) :
    (∃ left', g.Rewrites left left' ∧ result = left' ++ right) ∨
      ∃ right', g.Rewrites right right' ∧ result = left ++ right' := by
  obtain ⟨before, symbol, production, after, whole, has, rfl⟩ := step.exists_parts
  rcases append_eq_append_cons whole with ⟨middle, rfl, rfl⟩ | ⟨middle, rfl, rfl⟩
  · refine .inl ⟨before ++ visible production ++ middle, ?_, by simp⟩
    exact .expand before middle has
  · refine .inr ⟨middle ++ visible production ++ after, ?_, by simp⟩
    exact .expand middle after has

theorem Derives.split {left right result : List Nat} (derived : g.Derives (left ++ right) result) :
    ∃ left' right', result = left' ++ right' ∧ g.Derives left left' ∧ g.Derives right right' := by
  induction derived with
  | refl => exact ⟨left, right, rfl, .refl, .refl⟩
  | tail _ step ih =>
    obtain ⟨left', right', rfl, first, second⟩ := ih
    rcases step.split with ⟨next, front, rfl⟩ | ⟨next, back, rfl⟩
    · exact ⟨next, right', rfl, first.tail front, second⟩
    · exact ⟨left', next, rfl, first, second.tail back⟩

theorem derives_of_production {symbol : Nat} {right result : List Nat}
    (has : g.HasProduction symbol right) (derived : g.Derives (visible right) result) :
    g.Derives [symbol] result := by
  refine .head ?_ derived
  simpa using Rewrites.expand [] [] has

theorem Derives.singleton_cases {symbol : Nat} {result : List Nat}
    (derived : g.Derives [symbol] result) :
    result = [symbol] ∨
      ∃ right, g.HasProduction symbol right ∧ g.Derives (visible right) result := by
  rcases Relation.ReflTransGen.cases_head derived with same | ⟨next, step, rest⟩
  · exact .inl same.symm
  · obtain ⟨before, other, right, after, whole, has, rfl⟩ := step.exists_parts
    obtain ⟨rfl, rfl, rfl⟩ : before = [] ∧ other = symbol ∧ after = [] := by
      simpa [List.singleton_eq_append_iff] using whole
    rw [List.nil_append, List.append_nil] at rest
    exact .inr ⟨right, has, rest⟩

theorem Derives.nil_eq {result : List Nat} (derived : g.Derives [] result) : result = [] := by
  rcases Relation.ReflTransGen.cases_head derived with same | ⟨next, step, -⟩
  · exact same.symm
  · obtain ⟨before, other, right, after, whole, -⟩ := step.exists_parts
    simp at whole

theorem vanishes_nil : g.Vanishes [] := .refl

theorem vanishes_append {left right : List Nat} :
    g.Vanishes (left ++ right) ↔ g.Vanishes left ∧ g.Vanishes right := by
  unfold Vanishes
  rw [visible_append]
  constructor
  · intro derived
    obtain ⟨left', right', empty, first, second⟩ := derived.split
    obtain ⟨rfl, rfl⟩ := List.append_eq_nil_iff.1 empty.symm
    exact ⟨first, second⟩
  · intro given
    obtain ⟨first, second⟩ := given
    simpa using first.append second

theorem begins_append {left right : List Nat} {symbol : Nat} :
    g.Begins (left ++ right) symbol ↔
      g.Begins left symbol ∨ g.Vanishes left ∧ g.Begins right symbol := by
  unfold Begins Vanishes
  rw [visible_append]
  constructor
  · intro given
    obtain ⟨rest, derived⟩ := given
    obtain ⟨left', right', whole, first, second⟩ := derived.split
    cases left' with
    | nil =>
      rw [List.nil_append] at whole
      exact .inr ⟨first, rest, whole ▸ second⟩
    | cons head tail =>
      obtain ⟨rfl, -⟩ := List.cons.inj whole
      exact .inl ⟨tail, first⟩
  · intro either
    rcases either with ⟨rest, derived⟩ | ⟨vanishes, rest, derived⟩
    · exact ⟨rest ++ visible right, by simpa using derived.append .refl⟩
    · exact ⟨rest, by simpa using vanishes.append derived⟩

end Lookahead.Grammar
