import Lookahead.FirstSets.Evaluation

/-!
FOLLOW sets. The set of a nonterminal holds the terminals that can come after it, and the end mark
if it can come last. They are the least solution of their constraints for any FIRST sets, also for
those of another grammar.
-/

namespace Lookahead

structure FollowSets where
  sets : IndexMap IndexSet
deriving DecidableEq

def FollowSets.get? (follow : FollowSets) (symbol : Nat) : Option IndexSet :=
  follow.sets.get? symbol

/-- FOLLOW sets on their way to the solution. -/
structure Growth where
  sets : IndexMap IndexSet
  /-- The latest event comes first. -/
  log : List Event := []
deriving DecidableEq

namespace Growth

def get (s : Growth) (symbol : Nat) : IndexSet := (s.sets.get? symbol).getD ∅

def size (s : Growth) : Nat := s.sets.memberCount

/-- What stands after an occurrence of the symbol in a production of the source is added. -/
def extend (first : FirstSets) (source symbol : Nat) (after : List Nat) (s : Growth) : Growth :=
  let ahead := first.ofSequence after
  let addition :=
    if epsilonIndex ∈ ahead then ahead.erase epsilonIndex ∪ s.get source else ahead
  let larger := s.get symbol ∪ addition
  if larger.size = (s.get symbol).size then s
  else ⟨s.sets.insert symbol larger, .grew symbol larger.size source :: s.log⟩

end Growth

namespace Grammar

def extendAlong (g : Grammar) (first : FirstSets) (source : Nat) (s : Growth) :
    List Nat → Growth
  | [] => s
  | symbol :: after =>
    let s := if g.isNonTerminal symbol then s.extend first source symbol after else s
    g.extendAlong first source s after

/-- One pass over all productions. Every set is updated at once, so later productions see it. -/
def followPass (g : Grammar) (first : FirstSets) (s : Growth) : Growth :=
  g.indexedNonTerminals.foldl
    (fun s n => n.1.productions.foldl (g.extendAlong first n.2) s) s

/-- Only the end mark after the start symbol is known. -/
def initialGrowth (g : Grammar) : Growth :=
  let none : IndexMap IndexSet := g.indexedNonTerminals.foldl (fun m n => m.insert n.2 ∅) ∅
  ⟨none.insert g.start {endMarkIndex}, []⟩

/-- Members come from FIRST sets, the end mark apart, which bounds the sizes. -/
def saturateFollow (g : Grammar) (first : FirstSets) : Saturation Growth :=
  saturate (g.followPass first) Growth.size
    ((g.nonTerminals.length + 1) * (first.sets.memberCount + 1)) g.initialGrowth

def followSets (g : Grammar) (first : FirstSets) : FollowSets :=
  ⟨(g.saturateFollow first).result.sets⟩

def followLog (g : Grammar) (first : FirstSets) : List Event :=
  let saturated := g.saturateFollow first
  (.saturated saturated.passes :: saturated.result.log).reverse

/-- What happens from the end of building the grammar to the end of its FOLLOW sets. -/
def log (g : Grammar) : List Event :=
  let evaluated := g.evaluateFirst
  g.builtEvent :: evaluated.2 ++ g.followLog evaluated.1

end Grammar

end Lookahead
