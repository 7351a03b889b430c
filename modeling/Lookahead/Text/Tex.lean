/-!
Text inside a TeX document. Every character with a meaning of its own there is written so that it
prints as itself; of several hyphens in a row all but the last are kept apart from the next.
-/

namespace Lookahead.Text

def texCharacter (c : Char) (next : Option Char) : List Char :=
  if c ∈ ['&', '%', '$', '#', '_', '\x7b', '\x7d'] then ['\\', c]
  else if c = '[' ∨ c = ']' then ['\x7b', c, '\x7d']
  else if c = '~' then "\\textasciitilde\x7b\x7d".toList
  else if c = '^' then "\\textasciicircum\x7b\x7d".toList
  else if c = '<' then "\\textless\x7b\x7d".toList
  else if c = '>' then "\\textgreater\x7b\x7d".toList
  else if c = '!' then "!\x7b\x7d".toList
  else if c = '\\' then "\\textbackslash\x7b\x7d".toList
  else if c = '-' ∧ next = some '-' then "-\x7b\x7d".toList
  else [c]

def texCharacters : List Char → List Char
  | [] => []
  | c :: rest => texCharacter c rest.head? ++ texCharacters rest

def tex (text : String) : String := String.ofList (texCharacters text.toList)

end Lookahead.Text
