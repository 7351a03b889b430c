import Lookahead.Event
import Lookahead.FirstSets
import Lookahead.Saturation

/-!
Evaluation of FIRST sets. A first phase evaluates symbols by recursion and keeps each set in a
cache; a symbol that is needed for its own set contributes nothing, so sets on a cycle can come out
too small. A second phase evaluates all nonterminals again, from the cache, until no set grows.
-/

namespace Lookahead

/-- The sets that are known, and what happened on the way. -/
structure Evaluation where
  cache : IndexMap IndexSet := ∅
  /-- The latest event comes first. -/
  log : List Event := []
deriving DecidableEq

namespace Evaluation

def store (s : Evaluation) (symbol : Nat) (first : IndexSet) : Evaluation :=
  { s with cache := s.cache.insert symbol first }

def note (s : Evaluation) (event : Event) : Evaluation := { s with log := event :: s.log }

def size (s : Evaluation) : Nat := s.cache.memberCount

end Evaluation

namespace Grammar

/-- The number of nonterminals that are not being evaluated. -/
def idle (g : Grammar) (active : List Nat) : Nat :=
  g.indexedNonTerminals.countP fun n => n.2 ∉ active

private theorem countP_lt {α : Type} {p q : α → Bool} {l : List α} {a : α}
    (weaker : ∀ x ∈ l, p x → q x) (member : a ∈ l) (added : q a) (missing : ¬ p a) :
    l.countP p < l.countP q := by
  induction l with
  | nil => simp at member
  | cons x xs ih =>
    have rest : xs.countP p ≤ xs.countP q :=
      List.countP_mono_left fun y inside => weaker y (List.mem_cons_of_mem x inside)
    rw [List.countP_cons, List.countP_cons]
    grind

theorem idle_lt {g : Grammar} {active : List Nat} {symbol : Nat}
    {productions : List (List Nat)} (has : g.productions? symbol = some productions)
    (fresh : symbol ∉ active) : g.idle (symbol :: active) < g.idle active := by
  unfold productions? nonTerminal? at has
  split at has
  · simp at has
  · obtain ⟨n, found, -⟩ := Option.map_eq_some_iff.1 has
    refine countP_lt (a := (n, symbol)) ?_ ?_ ?_ ?_
    · simp
    · rw [indexedNonTerminals, List.mk_mem_zipIdx_iff_le_and_getElem?_sub]
      grind
    · simpa using fresh
    · simp

/-- The FIRST set of a symbol. The symbols being evaluated are `active`, the latest one first. -/
def request (g : Grammar) (active : List Nat) (symbol : Nat) : StateM Evaluation IndexSet := fun s =>
  match s.cache.get? symbol with
  | some first => (first, s)
  | none =>
    match _ : g.productions? symbol with
    | none => ({symbol}, s.store symbol {symbol})
    | some productions =>
      if _ : symbol ∈ active then (∅, s.note (.reentered symbol))
      else
        let evaluated := firstOfAlternatives (g.request (symbol :: active)) productions s
        (evaluated.1, evaluated.2.store symbol evaluated.1)
termination_by g.idle active
decreasing_by exact idle_lt ‹_› ‹_›

/-- The phase of recursion: epsilon, then all nonterminals, then all terminals. -/
def evaluate (g : Grammar) : Evaluation :=
  let symbols := epsilonIndex :: g.indexedNonTerminals.map (·.2) ++ g.indexedTerminals.map (·.2)
  symbols.foldl (fun s symbol => (g.request [] symbol s).2) {}

def refineSymbol (g : Grammar) (s : Evaluation) (n : NonTerminal × Nat) : Evaluation :=
  let evaluated := firstOfAlternatives (g.request []) n.1.productions s
  evaluated.2.store n.2 ((evaluated.2.cache.get? n.2).getD ∅ ∪ evaluated.1)

def refine (g : Grammar) (s : Evaluation) : Evaluation :=
  g.indexedNonTerminals.foldl g.refineSymbol s

/-- The phase of refinement. No set has more members than the grammar has symbols. -/
def settle (g : Grammar) (s : Evaluation) : Saturation Evaluation :=
  saturate g.refine Evaluation.size (g.size * g.size) s

def evaluateFirst (g : Grammar) : FirstSets × List Event :=
  let settled := g.settle g.evaluate
  let s := settled.result.note (.settled settled.passes settled.result.cache.size)
  (⟨s.cache⟩, s.log.reverse)

def firstSets (g : Grammar) : FirstSets := g.evaluateFirst.1

def firstLog (g : Grammar) : List Event := g.evaluateFirst.2

end Grammar

end Lookahead
