import Lookahead.Rejection
import Lookahead.Text.Blank

/-!
Symbols of a grammar and how a token is told to be one of them. How a token is spelled says nothing
about its kind: it is a nonterminal as soon as some rule has it on its left side.
-/

namespace Lookahead

/-- The end of the input in lookahead sets. -/
def endMark : String := "$"

/-- The empty text in productions, unless a definition chooses another token for it. -/
def defaultEpsilon : String := "ε"

inductive Symbol where
  | terminal (name : String)
  | nonTerminal (name : String)
  | epsilon
  | endMark
deriving DecidableEq

namespace Symbol

def name (epsilonToken : String) : Symbol → String
  | terminal name => name
  | nonTerminal name => name
  | epsilon => epsilonToken
  | endMark => Lookahead.endMark

def isTerminal : Symbol → Bool
  | terminal _ => true
  | _ => false

def isNonTerminal : Symbol → Bool
  | nonTerminal _ => true
  | _ => false

end Symbol

/-- The tokens that a definition gives a meaning to. -/
structure Vocabulary where
  epsilon : String
  nonTerminals : List String

namespace Vocabulary

def isReserved (v : Vocabulary) (token : String) : Bool :=
  token = v.epsilon ∨ token = endMark

/-- Only a blank token is no symbol at all. -/
def classify (v : Vocabulary) (token : String) : Option Symbol :=
  if token = v.epsilon then some .epsilon
  else if token = endMark then some .endMark
  else if token ∈ v.nonTerminals then some (.nonTerminal token)
  else if Text.isBlank token then none
  else some (.terminal token)

def classifyIn (v : Vocabulary) (left token : String) : Except Rejection Symbol :=
  match v.classify token with
  | some symbol => .ok symbol
  | none => .error (.unclassifiable left token)

end Vocabulary

end Lookahead
