import Lookahead.Text.Shapeless

/-!
Text quoted for a message, so that a reader sees which characters it holds. Quotes, backslashes and
the usual controls have short escapes; other characters without a shape of their own are written
as their code point in hexadecimal digits.
-/

namespace Lookahead.Text

private def quotedCharacter (c : Char) : List Char :=
  if c = '\"' ∨ c = '\\' then ['\\', c]
  else if c = '\n' then ['\\', 'n']
  else if c = '\r' then ['\\', 'r']
  else if c = '\t' then ['\\', 't']
  else if c = '\x00' then ['\\', '0']
  else if isShapeless c then '\\' :: 'u' :: '\x7b' :: Nat.toDigits 16 c.toNat ++ ['\x7d']
  else [c]

def quoted (text : String) : String :=
  String.ofList ('\"' :: text.toList.flatMap quotedCharacter ++ ['\"'])

end Lookahead.Text
