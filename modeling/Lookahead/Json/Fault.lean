import Lookahead.Decimal.Shortest
import Lookahead.Text.Quoted

/-!
Why a document cannot be read, and where. While a reader runs, a place is known by the bytes that
are left after it; its line and column come from the whole text (`Fault.place`).
-/

namespace Lookahead.Json

/-- A value of another type than the one that a document needs at its place. -/
inductive Found where
  | null
  | bool (value : Bool)
  | integer (value : Int)
  | decimal (value : Decimal)
  | text (value : String)
  | array
  | object
deriving DecidableEq

/-- Decimals in messages keep to positional text while the leading digit is between the fifth place
after the point and the sixteenth before it. -/
def decimalFormat : Decimal.Format := ⟨-5, 15⟩

def Found.description : Found → String
  | null => "null"
  | bool true => "boolean `true`"
  | bool false => "boolean `false`"
  | integer value => "integer `" ++ toString value ++ "`"
  | decimal value => "floating point `" ++ decimalFormat.text value ++ "`"
  | text value => "string " ++ Text.quoted value
  | array => "sequence"
  | object => "map"

/-- The types that a document needs at some place. -/
inductive Expected where
  | string
  | list
  | record (name : String)
deriving DecidableEq

def Expected.description : Expected → String
  | string => "a string"
  | list => "a sequence"
  | record name => "struct " ++ name

inductive Cause where
  | valueEnds
  | listEnds
  | objectEnds
  | stringEnds
  | valueExpected
  | wordExpected
  | colonExpected
  | listSeparatorExpected
  | objectSeparatorExpected
  | keyExpected
  | trailingCharacters
  | trailingComma
  | invalidNumber
  | numberOutOfRange
  | invalidEscape
  | controlCharacter
  | loneSurrogate
  | surrogateEnds
  | wrongType (found : Found) (expected : Expected)
  | tooShort (count : Nat) (record : String) (needed : Nat)
  | duplicateMember (key : String)
  | missingMember (key : String)
deriving DecidableEq

def Cause.message : Cause → String
  | valueEnds => "EOF while parsing a value"
  | listEnds => "EOF while parsing a list"
  | objectEnds => "EOF while parsing an object"
  | stringEnds => "EOF while parsing a string"
  | valueExpected => "expected value"
  | wordExpected => "expected ident"
  | colonExpected => "expected `:`"
  | listSeparatorExpected => "expected `,` or `]`"
  | objectSeparatorExpected => "expected `,` or `\x7d`"
  | keyExpected => "key must be a string"
  | trailingCharacters => "trailing characters"
  | trailingComma => "trailing comma"
  | invalidNumber => "invalid number"
  | numberOutOfRange => "number out of range"
  | invalidEscape => "invalid escape"
  | controlCharacter => "control character (\\u0000-\\u001F) found while parsing a string"
  | loneSurrogate => "lone leading surrogate in hex escape"
  | surrogateEnds => "unexpected end of hex escape"
  | wrongType found expected =>
    "invalid type: " ++ found.description ++ ", expected " ++ expected.description
  | tooShort count record needed =>
    "invalid length " ++ toString count ++ ", expected struct " ++ record ++ " with " ++
      toString needed ++ " elements"
  | duplicateMember key => "duplicate field `" ++ key ++ "`"
  | missingMember key => "missing field `" ++ key ++ "`"

/-- The number of bytes that characters take in UTF-8. -/
def byteCount (cs : List Char) : Nat := cs.foldr (fun c n => c.utf8Size + n) 0

/-- A cause, and the number of bytes after its place. -/
structure Fault where
  cause : Cause
  left : Nat
deriving DecidableEq

namespace Fault

/-- The place just before the rest. -/
def before (cause : Cause) (rest : List Char) : Fault := ⟨cause, byteCount rest⟩

/-- The place after the next byte of the rest, which is its end if there is none. -/
def next (cause : Cause) (rest : List Char) : Fault := ⟨cause, byteCount rest - 1⟩

end Fault

structure Place where
  line : Nat
  column : Nat
deriving DecidableEq

/-- Lines count from one and columns in bytes; a place may lie inside a character. -/
private def advance (place : Place) : Nat → List Char → Place
  | _, [] => place
  | bytes, c :: rest =>
    if bytes < c.utf8Size then { place with column := place.column + bytes }
    else
      let after : Place :=
        if c = '\n' then ⟨place.line + 1, 0⟩ else ⟨place.line, place.column + c.utf8Size⟩
      advance after (bytes - c.utf8Size) rest

def Fault.place (fault : Fault) (text : List Char) : Place :=
  advance ⟨1, 0⟩ (byteCount text - fault.left) text

end Lookahead.Json
