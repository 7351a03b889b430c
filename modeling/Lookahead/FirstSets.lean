import Lookahead.Grammar
import Lookahead.IndexMap

/-!
FIRST sets. The set of a symbol holds the terminals that texts derived from it begin with, and
epsilon if the empty text is one of them.
-/

namespace Lookahead

/-- A scan over a sequence, where `request` gives the FIRST set of a symbol. It stops at the first
symbol that is not nullable. -/
def firstOfSequence {m : Type → Type} [Monad m] (request : Nat → m IndexSet) :
    List Nat → m IndexSet
  | [] => pure {epsilonIndex}
  | symbol :: rest => do
    let first ← request symbol
    if epsilonIndex ∈ first then
      return first.erase epsilonIndex ∪ (← firstOfSequence request rest)
    else return first

def firstOfAlternatives {m : Type → Type} [Monad m] (request : Nat → m IndexSet) :
    List (List Nat) → m IndexSet
  | [] => pure ∅
  | sequence :: rest => do
    return (← firstOfSequence request sequence) ∪ (← firstOfAlternatives request rest)

structure FirstSets where
  sets : IndexMap IndexSet
deriving DecidableEq

namespace FirstSets

def get? (first : FirstSets) (symbol : Nat) : Option IndexSet := first.sets.get? symbol

/-- A symbol without an entry has the empty set. -/
def get (first : FirstSets) (symbol : Nat) : IndexSet := (first.get? symbol).getD ∅

def isNullable (first : FirstSets) (symbol : Nat) : Bool := epsilonIndex ∈ first.get symbol

def ofSequence (first : FirstSets) (sequence : List Nat) : IndexSet :=
  Id.run (firstOfSequence (fun symbol => pure (first.get symbol)) sequence)

@[simp] theorem ofSequence_nil (first : FirstSets) : first.ofSequence [] = {epsilonIndex} := rfl

theorem ofSequence_cons (first : FirstSets) (symbol : Nat) (rest : List Nat) :
    first.ofSequence (symbol :: rest) =
      if epsilonIndex ∈ first.get symbol then
        (first.get symbol).erase epsilonIndex ∪ first.ofSequence rest
      else first.get symbol := by
  simp only [ofSequence, firstOfSequence, pure_bind]
  split <;> rfl

end FirstSets

end Lookahead
