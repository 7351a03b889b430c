/-!
JSON values and their compact text: no blanks, members in the order that the value gives them, and
in strings only quotes, backslashes and control characters escaped.
-/

namespace Lookahead

inductive Json where
  | null
  | bool (value : Bool)
  | text (value : String)
  | array (items : List Json)
  | object (members : List (String × Json))

namespace Json

def escaped (c : Char) : List Char :=
  if c = '\"' ∨ c = '\\' then ['\\', c]
  else if c = '\x08' then ['\\', 'b']
  else if c = '\t' then ['\\', 't']
  else if c = '\n' then ['\\', 'n']
  else if c = '\x0c' then ['\\', 'f']
  else if c = '\r' then ['\\', 'r']
  else if c.toNat < 0x20 then
    ['\\', 'u', '0', '0', Nat.digitChar (c.toNat / 16), Nat.digitChar (c.toNat % 16)]
  else [c]

def quotedText (s : String) : List Char := '\"' :: s.toList.flatMap escaped ++ ['\"']

mutual

def characters : Json → List Char
  | null => "null".toList
  | bool true => "true".toList
  | bool false => "false".toList
  | text s => quotedText s
  | array items => '[' :: itemCharacters items ++ [']']
  | object members => '\x7b' :: memberCharacters members ++ ['\x7d']

def itemCharacters : List Json → List Char
  | [] => []
  | [item] => item.characters
  | item :: next :: rest => item.characters ++ ',' :: itemCharacters (next :: rest)

def memberCharacters : List (String × Json) → List Char
  | [] => []
  | [(key, value)] => quotedText key ++ ':' :: value.characters
  | (key, value) :: next :: rest =>
    quotedText key ++ ':' :: value.characters ++ ',' :: memberCharacters (next :: rest)

end

def render (value : Json) : String := String.ofList value.characters

end Json

end Lookahead
