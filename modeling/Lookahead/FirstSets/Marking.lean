import Lookahead.FirstSets.Evaluation

/-!
Evaluation of FIRST sets with marks. The symbols in progress are kept as marks in the state, where every request can
see them: a symbol is marked before its alternatives are evaluated, and its mark is removed afterwards.
-/

namespace Lookahead

/-- An evaluation, with marks on the symbols in progress. -/
structure Marking where
  evaluation : Evaluation := {}
  marks : IndexSet := ∅
  /-- The symbols that have ever been marked, the latest one first. Nothing depends on them. -/
  begun : List Nat := []
deriving DecidableEq

namespace Marking

/-- The states with the given marks. -/
structure At (current : IndexSet) extends Marking where
  marked : marks = current
deriving DecidableEq

namespace At

variable {current : IndexSet}

def store (s : At current) (symbol : Nat) (first : IndexSet) : At current :=
  { s with evaluation := s.evaluation.store symbol first }

def note (s : At current) (event : Event) : At current :=
  { s with evaluation := s.evaluation.note event }

def mark (s : At current) (symbol : Nat) : At (insert symbol current) where
  evaluation := s.evaluation
  marks := insert symbol s.marks
  begun := symbol :: s.begun
  marked := congrArg (insert symbol) s.marked

/-- The mark is removed, which leaves the others only if the symbol was not marked before. -/
def unmark {symbol : Nat} (s : At (insert symbol current)) (fresh : symbol ∉ current) : At current where
  evaluation := s.evaluation
  marks := s.marks.erase symbol
  begun := s.begun
  marked := by rw [s.marked, IndexSet.erase_insert fresh]

end At

end Marking

namespace Grammar

theorem idle_congr {g : Grammar} {active active' : List Nat} (same : ∀ i, i ∈ active ↔ i ∈ active') :
    g.idle active = g.idle active' := by
  simp only [idle, same]

theorem idle_insert_lt {g : Grammar} {current : IndexSet} {symbol : Nat} {productions : List (List Nat)}
    (has : g.productions? symbol = some productions) (fresh : symbol ∉ current) :
    g.idle (insert symbol current : IndexSet).toList < g.idle current.toList := by
  have same : g.idle (insert symbol current : IndexSet).toList = g.idle (symbol :: current.toList) :=
    idle_congr (by simp)
  rw [same]
  exact idle_lt has fresh

/-- The FIRST set of a symbol. Its type says that all marks are again as they were before. -/
def requestMarked (g : Grammar) (current : IndexSet) (symbol : Nat) :
    StateM (Marking.At current) IndexSet := fun s =>
  match s.evaluation.cache.get? symbol with
  | some first => (first, s)
  | none =>
    match _ : g.productions? symbol with
    | none => ({symbol}, s.store symbol {symbol})
    | some productions =>
      if marked : symbol ∈ s.marks then (∅, s.note (.reentered symbol))
      else
        have fresh : symbol ∉ current := s.marked ▸ marked
        let evaluated :=
          firstOfAlternatives (g.requestMarked (insert symbol current)) productions (s.mark symbol)
        (evaluated.1, (evaluated.2.unmark fresh).store symbol evaluated.1)
termination_by g.idle current.toList
decreasing_by exact idle_insert_lt ‹_› ‹_›

def evaluateMarked (g : Grammar) : Marking.At ∅ :=
  let symbols := epsilonIndex :: g.indexedNonTerminals.map (·.2) ++ g.indexedTerminals.map (·.2)
  symbols.foldl (fun s symbol => (g.requestMarked ∅ symbol s).2) { marked := rfl }

def refineSymbolMarked (g : Grammar) (s : Marking.At ∅) (n : NonTerminal × Nat) : Marking.At ∅ :=
  let evaluated := firstOfAlternatives (g.requestMarked ∅) n.1.productions s
  evaluated.2.store n.2 ((evaluated.2.evaluation.cache.get? n.2).getD ∅ ∪ evaluated.1)

def refineMarked (g : Grammar) (s : Marking.At ∅) : Marking.At ∅ :=
  g.indexedNonTerminals.foldl g.refineSymbolMarked s

/-- Both phases, with the marks that the second one leaves. -/
def markedRun (g : Grammar) : Marking :=
  (saturate g.refineMarked (·.evaluation.size) (g.size * g.size) g.evaluateMarked).result.toMarking

end Grammar

end Lookahead
