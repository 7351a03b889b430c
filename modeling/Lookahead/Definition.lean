import Lookahead.Json.Value
import Lookahead.Symbol

/-!
Grammar definitions as they are written down: rules in their order, perhaps a start symbol, and the
token for the empty text.
-/

namespace Lookahead

structure Rule where
  left : String
  rights : List (List String)
deriving DecidableEq

structure Definition where
  rules : List Rule
  start : Option String
  epsilon : String
deriving DecidableEq

namespace Definition

def empty : Definition := ⟨[], none, defaultEpsilon⟩

instance : EmptyCollection Definition := ⟨empty⟩

def addRule (d : Definition) (left : String) (rights : List (List String)) : Definition :=
  { d with rules := d.rules ++ [⟨left, rights⟩] }

def withStart (d : Definition) (start : String) : Definition := { d with start := some start }

def withEpsilon (d : Definition) (epsilon : String) : Definition := { d with epsilon := epsilon }

/-- The first left side, unless the definition says otherwise. -/
def startSymbol? (d : Definition) : Option String :=
  d.start <|> d.rules.head?.map (·.left)

end Definition

def Rule.toJson (rule : Rule) : Json :=
  .object [("lhs", .text rule.left),
    ("rhs", .array (rule.rights.map fun right => .array (right.map .text)))]

def Definition.toJson (d : Definition) : Json :=
  .object [("rules", .array (d.rules.map Rule.toJson)),
    ("start", match d.start with
      | some start => .text start
      | none => .null),
    ("epsilon", .text d.epsilon)]

def Definition.write (d : Definition) : String := d.toJson.render

end Lookahead
