import QueryForest.Text.Digits
import QueryForest.Text.Hidden

namespace QueryForest.Quoted

/-!
# Quoted text

A text or a character between quotes, as messages show it. The quote itself and the backslash stand
behind a backslash, tab, line feed, carriage return and the null character have a letter of their
own, and every other hidden character is spelled out by its number in base sixteen.
-/

/-- One character between quotes of the given kind. -/
def escape (quote c : Char) : List Char :=
  if c = '\t' then ['\\', 't']
  else if c = '\n' then ['\\', 'n']
  else if c = '\r' then ['\\', 'r']
  else if c = '\x00' then ['\\', '0']
  else if c = quote ∨ c = '\\' then ['\\', c]
  else if isHidden c then '\\' :: 'u' :: '\x7b' :: Digits.hexOfNat c.toNat ++ ['\x7d']
  else [c]

/-- A text between double quotes. -/
def text (s : String) : List Char :=
  '"' :: s.toList.flatMap (escape '"') ++ ['"']

/-- A character between single quotes. -/
def char (c : Char) : List Char :=
  '\'' :: escape '\'' c ++ ['\'']

end QueryForest.Quoted
