import Lookahead.Proofs.Derivation

/-!
Left recursion, also where it is hidden behind symbols from which the empty text is derived. A
grounded symbol starts no endless chain of left dependencies, so it is not left-recursive.
-/

namespace Lookahead.Grammar

def Leftmost (g : Grammar) (sequence : List Nat) (symbol : Nat) : Prop :=
  ∃ before after, sequence = before ++ symbol :: after ∧ g.Vanishes before

def LeftDepends (g : Grammar) (symbol other : Nat) : Prop :=
  g.isNonTerminal other ∧ ∃ right, g.HasProduction symbol right ∧ g.Leftmost right other

def LeftRecursive (g : Grammar) (symbol : Nat) : Prop :=
  Relation.TransGen g.LeftDepends symbol symbol

def Grounded (g : Grammar) (symbol : Nat) : Prop :=
  Acc (fun other symbol => g.LeftDepends symbol other) symbol

/-- `S → A S a | b` and `A → ε`: the recursion of `S` is hidden behind `A`. -/
def hiddenRecursion : Grammar :=
  ⟨"ε", [⟨"S", [[3, 2, 4], [5]]⟩, ⟨"A", [[0]]⟩], ["a", "b"], 2⟩

variable {g : Grammar}

theorem not_leftmost_nil {symbol : Nat} : ¬ g.Leftmost [] symbol := by
  intro given
  obtain ⟨before, after, impossible, -⟩ := given
  simp at impossible

theorem leftmost_cons {head symbol : Nat} {rest : List Nat} :
    g.Leftmost (head :: rest) symbol ↔ symbol = head ∨ g.Vanishes [head] ∧ g.Leftmost rest symbol := by
  constructor
  · intro given
    obtain ⟨before, after, whole, vanishes⟩ := given
    cases before with
    | nil => exact .inl (List.cons.inj whole).1.symm
    | cons other before =>
      obtain ⟨rfl, rfl⟩ := List.cons.inj whole
      rw [← List.singleton_append, vanishes_append] at vanishes
      exact .inr ⟨vanishes.1, before, after, rfl, vanishes.2⟩
  · intro either
    rcases either with rfl | ⟨first, before, after, rfl, vanishes⟩
    · exact ⟨[], rest, rfl, vanishes_nil⟩
    · refine ⟨head :: before, after, rfl, ?_⟩
      rw [← List.singleton_append, vanishes_append]
      exact ⟨first, vanishes⟩

theorem Leftmost.mem {sequence : List Nat} {symbol : Nat} (leftmost : g.Leftmost sequence symbol) :
    symbol ∈ sequence := by
  obtain ⟨before, after, rfl, -⟩ := leftmost
  simp

theorem LeftRecursive.isNonTerminal {symbol : Nat} (recursive : g.LeftRecursive symbol) :
    g.isNonTerminal symbol := by
  obtain ⟨other, -, depends⟩ := Relation.TransGen.tail'_iff.1 recursive
  exact depends.1

theorem Grounded.not_leftRecursive {symbol : Nat} (grounded : g.Grounded symbol) :
    ¬ g.LeftRecursive symbol := by
  induction grounded with
  | intro symbol _ ih =>
    intro recursive
    -- a cycle through a symbol is one through the first symbol after it
    obtain ⟨other, depends, back⟩ := Relation.TransGen.head'_iff.1 recursive
    exact ih other depends (Relation.TransGen.tail' back depends)

end Lookahead.Grammar
