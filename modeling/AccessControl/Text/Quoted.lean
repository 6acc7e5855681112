import AccessControl.Numeral
import AccessControl.Text.Printable

/-!
# Quoted text

A text between double quotes, on one line and visible throughout: quotes, backslashes
and the common control characters are written with a backslash, and every other
character that shows nothing of its own, or that attaches to the one before it, by its
code point.
-/

namespace AccessControl
namespace Text

/-- The code point between braces, in hexadecimal without leading zeros. -/
def codePoint (c : Char) : String := "\\u\x7b" ++ Numeral.hex c.toNat ++ "\x7d"

def quotedChar (c : Char) : String :=
  if c = '\x00' then "\\0"
  else if c = '\t' then "\\t"
  else if c = '\r' then "\\r"
  else if c = '\n' then "\\n"
  else if c = '\\' then "\\\\"
  else if c = '\x22' then "\\\""
  else if isAttached c || !isPrintable c then codePoint c
  else String.singleton c

def quoted (text : String) : String :=
  "\"" ++ String.join (text.toList.map quotedChar) ++ "\""

end Text
end AccessControl
