import Lookahead.IndexSet
import Lookahead.Symbol

/-!
Grammars over numbered symbols. The numbering is a matter of layout: epsilon is 0, the end mark 1,
then come the nonterminals in the order of their declaration, then the terminals in the order of
their first appearance.
-/

namespace Lookahead

def epsilonIndex : Nat := 0

def endMarkIndex : Nat := 1

/-- Epsilon and the end mark come before all other symbols. -/
def markerCount : Nat := 2

structure NonTerminal where
  name : String
  productions : List (List Nat)
deriving DecidableEq

structure Grammar where
  epsilon : String
  nonTerminals : List NonTerminal
  terminals : List String
  start : Nat
deriving DecidableEq

namespace Grammar

def symbols (g : Grammar) : List Symbol :=
  .epsilon :: .endMark ::
    (g.nonTerminals.map (fun n => .nonTerminal n.name) ++ g.terminals.map .terminal)

def size (g : Grammar) : Nat := markerCount + g.nonTerminals.length + g.terminals.length

def nonTerminal? (g : Grammar) (i : Nat) : Option NonTerminal :=
  if i < markerCount then none else g.nonTerminals[i - markerCount]?

def isNonTerminal (g : Grammar) (i : Nat) : Bool := (g.nonTerminal? i).isSome

def productions? (g : Grammar) (i : Nat) : Option (List (List Nat)) :=
  (g.nonTerminal? i).map (·.productions)

/-- Nothing for an index that the grammar does not have. -/
def symbol? (g : Grammar) : Nat → Option Symbol
  | 0 => some .epsilon
  | 1 => some .endMark
  | i + 2 =>
    match g.nonTerminals[i]? with
    | some n => some (.nonTerminal n.name)
    | none => g.terminals[i - g.nonTerminals.length]?.map .terminal

theorem symbol?_eq_getElem? (g : Grammar) (i : Nat) : g.symbol? i = g.symbols[i]? := by
  match i with
  | 0 => rfl
  | 1 => rfl
  | i + 2 =>
    simp only [symbol?, symbols, List.getElem?_cons_succ, List.getElem?_append, List.length_map,
      List.getElem?_map]
    split <;> rename_i found
    · obtain ⟨inside, same⟩ := List.getElem?_eq_some_iff.1 found
      simp [inside, same]
    · rw [if_neg (Nat.not_lt.2 (List.getElem?_eq_none_iff.1 found))]

theorem length_symbols (g : Grammar) : g.symbols.length = g.size := by
  simp only [symbols, size, markerCount, List.length_cons, List.length_append, List.length_map]
  omega

def name? (g : Grammar) (i : Nat) : Option String := (g.symbol? i).map (Symbol.name g.epsilon)

/-- The empty text, which names no symbol, for an index that the grammar does not have. -/
def nameOf (g : Grammar) (i : Nat) : String := (g.name? i).getD ""

def indexOf? (g : Grammar) (name : String) : Option Nat :=
  if name = g.epsilon then some epsilonIndex
  else if name = endMark then some endMarkIndex
  else
    match g.nonTerminals.findIdx? (·.name = name) with
    | some i => some (markerCount + i)
    | none => (g.terminals.idxOf? name).map (markerCount + g.nonTerminals.length + ·)

def indexedNonTerminals (g : Grammar) : List (NonTerminal × Nat) := g.nonTerminals.zipIdx markerCount

def indexedTerminals (g : Grammar) : List (String × Nat) :=
  g.terminals.zipIdx (markerCount + g.nonTerminals.length)

/-- Names in the order of their code points. -/
def sortNames (names : List String) : List String := names.mergeSort (fun a b => !(b < a))

/-- The names of a set, unless it has an index that the grammar does not have. -/
def namesOf? (g : Grammar) (s : IndexSet) : Option (List String) :=
  (s.toList.mapM g.name?).map sortNames

end Grammar

end Lookahead
