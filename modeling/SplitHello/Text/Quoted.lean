import SplitHello.Text.Hex
import SplitHello.Text.Unprintable

/-!
# Text/Quoted — a text in quotes, readable on one line

A quoted text stands in double quotes.  A quote, a backslash and the four common control characters
are written as a backslash and one character; whatever else would not show as itself is written as
its code point in hexadecimal.
-/

namespace SplitHello.Text

/-- How a character is written between the quotes. -/
def escape (c : Char) : String :=
  if c = '"' then "\\\""
  else if c = '\\' then "\\\\"
  else if c = '\t' then "\\t"
  else if c = '\n' then "\\n"
  else if c = '\r' then "\\r"
  else if c = '\x00' then "\\0"
  else if isUnprintable c then "\\u\x7b" ++ hexDigits 1 c.toNat ++ "\x7d"
  else String.singleton c

/-- A text in quotes. -/
def quoted (text : String) : String := "\"" ++ String.join (text.toList.map escape) ++ "\""

end SplitHello.Text
