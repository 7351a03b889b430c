import Lookahead.Json.Fault

/-!
Why a grammar definition is turned down before any set is computed.
-/

namespace Lookahead

inductive Rejection where
  | noRules
  | missingStart (name : String)
  | emptyProductions (name : String)
  | unclassifiable (nonTerminal token : String)
  | reservedName (name : String)
  | invalidName (name : String)
  | malformed (cause : Json.Cause) (place : Json.Place)
deriving DecidableEq

/-- Names stand between quotes as they are, whatever they hold. -/
def Rejection.message : Rejection → String
  | noRules => "grammar has no rules"
  | missingStart name => "start symbol \"" ++ name ++ "\" has no productions"
  | emptyProductions name => "nonterminal \"" ++ name ++ "\" has an empty production list"
  | unclassifiable nonTerminal token =>
    "production of \"" ++ nonTerminal ++ "\" references unclassifiable symbol \"" ++ token ++ "\""
  | reservedName name => "\"" ++ name ++ "\" is a reserved marker"
  | invalidName name => "\"" ++ name ++ "\" is empty or contains whitespace"
  | malformed cause place =>
    "malformed grammar definition: " ++ cause.message ++ " at line " ++ toString place.line ++
      " column " ++ toString place.column

end Lookahead
