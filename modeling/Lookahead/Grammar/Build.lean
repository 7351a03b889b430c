import Lookahead.Definition
import Lookahead.Grammar

/-!
Grammars built from definitions. Two scans go over the rules: the first collects the left sides and
checks them, the second numbers the tokens of the productions and finds the terminals.
-/

namespace Lookahead.Grammar

/-- Left sides in the order of their first rules, after those declared already. -/
def declare (v : Vocabulary) (declared : List String) : List Rule → Except Rejection (List String)
  | [] => .ok declared
  | rule :: rules =>
    if v.isReserved rule.left then .error (.reservedName rule.left)
    else if Text.isBlank rule.left then .error (.invalidName rule.left)
    else declare v (if rule.left ∈ declared then declared else declared ++ [rule.left]) rules

/-- The index of a token of a production, and the terminals known after it. -/
def numberToken (v : Vocabulary) (declared : List String) (left : String)
    (terminals : List String) (token : String) : Except Rejection (Nat × List String) :=
  match v.classifyIn left token with
  | .error rejection => .error rejection
  | .ok .epsilon => .ok (epsilonIndex, terminals)
  | .ok .endMark => .error (.unclassifiable left token)
  | .ok (.nonTerminal name) => .ok (markerCount + declared.idxOf name, terminals)
  | .ok (.terminal name) =>
    match terminals.idxOf? name with
    | some i => .ok (markerCount + declared.length + i, terminals)
    | none => .ok (markerCount + declared.length + terminals.length, terminals ++ [name])

/-- Goes through a list in order, handing on a state from one element to the next. -/
def thread {α β σ ε : Type} (step : σ → α → Except ε (β × σ)) (state : σ) :
    List α → Except ε (List β × σ)
  | [] => .ok ([], state)
  | a :: rest =>
    match step state a with
    | .error fault => .error fault
    | .ok (b, state) =>
      match thread step state rest with
      | .error fault => .error fault
      | .ok (bs, state) => .ok (b :: bs, state)

def numberRule (v : Vocabulary) (declared terminals : List String) (rule : Rule) :
    Except Rejection ((String × List (List Nat)) × List String) :=
  match thread (thread (numberToken v declared rule.left)) terminals rule.rights with
  | .error rejection => .error rejection
  | .ok (productions, terminals) => .ok ((rule.left, productions), terminals)

/-- The productions of all rules with one left side. -/
def collect (numbered : List (String × List (List Nat))) (name : String) : NonTerminal :=
  ⟨name, (numbered.filter (·.1 = name)).flatMap (·.2)⟩

/-- A nonterminal needs a production. -/
def checkProductions (start : String) (nonTerminals : List NonTerminal) : Except Rejection Unit :=
  match nonTerminals.find? (·.productions.isEmpty) with
  | none => .ok ()
  | some n => .error (if n.name = start then .missingStart n.name else .emptyProductions n.name)

def build (rules : List Rule) (start epsilon : String) : Except Rejection Grammar := do
  if rules.isEmpty then throw .noRules
  if Text.isBlank epsilon then throw (.invalidName epsilon)
  if epsilon = endMark then throw (.reservedName epsilon)
  let v : Vocabulary := ⟨epsilon, rules.map (·.left)⟩
  let declared ← declare v [] rules
  let (numbered, terminals) ← thread (numberRule v declared) [] rules
  if start ∈ declared then
    let nonTerminals := declared.map (collect numbered)
    checkProductions start nonTerminals
    return ⟨epsilon, nonTerminals, terminals, markerCount + declared.idxOf start⟩
  else throw (.missingStart start)

end Lookahead.Grammar

namespace Lookahead.Definition

def build (d : Definition) : Except Rejection Grammar :=
  match d.startSymbol? with
  | none => .error .noRules
  | some start => Grammar.build d.rules start d.epsilon

end Lookahead.Definition
