import Lookahead.Grammar

/-!
What happens while lookahead sets are computed, for those who want to follow the computation.
-/

namespace Lookahead

inductive Event where
  | built (nonTerminals terminals start : Nat)
  /-- FIRST of a symbol was requested while it was being evaluated. -/
  | reentered (symbol : Nat)
  | settled (passes symbols : Nat)
  /-- A FOLLOW set has become larger, because of a production of the source. -/
  | grew (symbol size source : Nat)
  | saturated (passes : Nat)
deriving DecidableEq

namespace Event

def level : Event → String
  | grew .. => "TRACE"
  | _ => "DEBUG"

/-- What happened, with the names that symbols are given. -/
def text (nameOf : Nat → String) : Event → String
  | built nonTerminals terminals start =>
    "grammar built: " ++ toString nonTerminals ++ " nonterminals, " ++ toString terminals ++
      " terminals, start symbol " ++ nameOf start
  | reentered symbol =>
    "FIRST(" ++ nameOf symbol ++ ") requested while in progress, cycle contributes nothing"
  | settled passes symbols =>
    "FIRST sets settled after " ++ toString passes ++ " refinement pass(es) over " ++
      toString symbols ++ " symbols"
  | grew symbol size source =>
    "FOLLOW(" ++ nameOf symbol ++ ") grew to " ++ toString size ++
      " symbol(s) in a production of " ++ nameOf source
  | saturated passes => "FOLLOW sets reached a fixpoint after " ++ toString passes ++ " pass(es)"

def lineBy (nameOf : Nat → String) (event : Event) : String := event.level ++ " " ++ event.text nameOf

def line (g : Grammar) (event : Event) : String := event.lineBy g.nameOf

end Event

def Grammar.builtEvent (g : Grammar) : Event :=
  .built g.nonTerminals.length g.terminals.length g.start

end Lookahead
