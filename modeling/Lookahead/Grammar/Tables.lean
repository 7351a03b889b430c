import Lookahead.Grammar.Build
import Lookahead.IndexMap

/-!
Building with tables. Symbols stand in one list, in the order of their indices. Beside it are kept a
table from names to indices, the nonterminals with their indices, and a table from these indices to
places among the nonterminals. A look-up in a table may miss, and then building stops.
-/

namespace Lookahead

def NonTerminal.addProduction (n : NonTerminal) (right : List Nat) : NonTerminal :=
  { n with productions := n.productions ++ [right] }

structure Tables where
  epsilon : String
  symbols : List Symbol
  /-- A later entry comes before an earlier one of the same name. -/
  indices : List (String × Nat)
  nonTerminals : List (NonTerminal × Nat)
  places : IndexMap Nat
  start : Nat

namespace Tables

inductive Stop where
  | rejected (rejection : Rejection)
  /-- A table has no entry where one is needed. -/
  | missed
deriving DecidableEq

def initial (epsilon : String) : Tables where
  epsilon := epsilon
  symbols := [.epsilon, .endMark]
  indices := [(endMark, endMarkIndex), (epsilon, epsilonIndex)]
  nonTerminals := []
  places := ∅
  start := epsilonIndex

def indexOf? (t : Tables) (name : String) : Option Nat := t.indices.lookup name

def name? (t : Tables) (i : Nat) : Option String := t.symbols[i]?.map (Symbol.name t.epsilon)

def isNonTerminal (t : Tables) (i : Nat) : Bool := (t.places.get? i).isSome

/-- The nonterminal at an index, with the index that it keeps itself. -/
def nonTerminal? (t : Tables) (i : Nat) : Option (NonTerminal × Nat) :=
  (t.places.get? i).bind (t.nonTerminals[·]?)

def addNonTerminal (t : Tables) (name : String) : Tables :=
  let i := t.symbols.length
  { t with
    symbols := t.symbols ++ [.nonTerminal name]
    indices := (name, i) :: t.indices
    nonTerminals := t.nonTerminals ++ [(⟨name, []⟩, i)]
    places := t.places.insert i t.nonTerminals.length }

def addTerminal (t : Tables) (name : String) : Tables :=
  { t with
    symbols := t.symbols ++ [.terminal name]
    indices := (name, t.symbols.length) :: t.indices }

def addProduction (t : Tables) (left : Nat) (right : List Nat) : Except Stop Tables :=
  match t.places.get? left with
  | none => .error .missed
  | some place =>
    match t.nonTerminals[place]? with
    | none => .error .missed
    | some (n, i) =>
      .ok { t with nonTerminals := t.nonTerminals.set place (n.addProduction right, i) }

/-- The first scan. -/
def declare (v : Vocabulary) (t : Tables) : List Rule → Except Stop Tables
  | [] => .ok t
  | rule :: rules =>
    if v.isReserved rule.left then .error (.rejected (.reservedName rule.left))
    else if Text.isBlank rule.left then .error (.rejected (.invalidName rule.left))
    else declare v (if (t.indexOf? rule.left).isNone then t.addNonTerminal rule.left else t) rules

def numberToken (v : Vocabulary) (left : String) (t : Tables) (token : String) :
    Except Stop (Nat × Tables) :=
  match v.classifyIn left token with
  | .error rejection => .error (.rejected rejection)
  | .ok .epsilon => .ok (epsilonIndex, t)
  | .ok .endMark => .error (.rejected (.unclassifiable left token))
  | .ok (.nonTerminal name) =>
    match t.indexOf? name with
    | some i => .ok (i, t)
    | none => .error .missed
  | .ok (.terminal name) =>
    match t.indexOf? name with
    | some i => .ok (i, t)
    | none => .ok (t.symbols.length, t.addTerminal name)

def addRight (v : Vocabulary) (name : String) (left : Nat) (t : Tables) (right : List String) :
    Except Stop Tables := do
  let (sequence, t) ← Grammar.thread (numberToken v name) t right
  t.addProduction left sequence

def addRule (v : Vocabulary) (t : Tables) (rule : Rule) : Except Stop Tables :=
  match t.indexOf? rule.left with
  | none => .error .missed
  | some left => rule.rights.foldlM (addRight v rule.left left) t

def checkStart (t : Tables) (start : String) : Except Stop Tables :=
  match t.indexOf? start with
  | some i =>
    if t.isNonTerminal i then .ok { t with start := i } else .error (.rejected (.missingStart start))
  | none => .error (.rejected (.missingStart start))

def checkProductions (t : Tables) : Except Stop Tables :=
  match t.nonTerminals.find? (·.1.productions.isEmpty) with
  | none => .ok t
  | some (n, i) =>
    .error (.rejected (if i = t.start then .missingStart n.name else .emptyProductions n.name))

def build (rules : List Rule) (start epsilon : String) : Except Stop Tables := do
  if rules.isEmpty then throw (.rejected .noRules)
  if Text.isBlank epsilon then throw (.rejected (.invalidName epsilon))
  if epsilon = endMark then throw (.rejected (.reservedName epsilon))
  let v : Vocabulary := ⟨epsilon, rules.map (·.left)⟩
  let declared ← declare v (initial epsilon) rules
  let filled ← rules.foldlM (addRule v) declared
  let started ← filled.checkStart start
  started.checkProductions

end Tables

def Definition.tables (d : Definition) : Except Tables.Stop Tables :=
  match d.startSymbol? with
  | none => .error (.rejected .noRules)
  | some start => Tables.build d.rules start d.epsilon

end Lookahead
