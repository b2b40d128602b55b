import Redaction.Text.Printable

/-!
# Quoted text

The form in which diagnostics show a text: between double quotes, with a backslash before a quote or
a backslash, short escapes for the common controls, and the code point of every other character that
cannot be printed.
-/

namespace Redaction.Text

def escapeCodePoint (c : Char) : String :=
  "\\u\x7b" ++ String.ofList (Nat.toDigits 16 c.toNat) ++ "\x7d"

def escapeChar (c : Char) : String :=
  if c = '\x00' then "\\0"
  else if c = '\t' then "\\t"
  else if c = '\r' then "\\r"
  else if c = '\n' then "\\n"
  else if c = '"' then "\\\""
  else if c = '\\' then "\\\\"
  else if isPrintable c then c.toString
  else escapeCodePoint c

def quoted (s : String) : String :=
  "\"" ++ String.join (s.toList.map escapeChar) ++ "\""

end Redaction.Text
