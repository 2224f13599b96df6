import KernelSync.Text.Printable

/-!
Quoted text: between double quotes, with an escape for every character that would not show as
itself. A control character with a letter of its own is written with that letter, and any other
character that has no shape of its own is written as its code in hexadecimal.
-/

namespace KernelSync.Text

/-- The code of a character in braces, as in `\u{7f}`. -/
def codeEscape (c : Char) : String :=
  "\\u\x7b" ++ String.ofList (Nat.toDigits 16 c.toNat) ++ "\x7d"

/-- How a character is written between quotes. -/
def escape (c : Char) : String :=
  if c = '\x00' then "\\0"
  else if c = '\t' then "\\t"
  else if c = '\r' then "\\r"
  else if c = '\n' then "\\n"
  else if c = '"' then "\\\""
  else if c = '\\' then "\\\\"
  else if isPrintable c && !isExtending c then c.toString
  else codeEscape c

def quoted (text : String) : String :=
  "\"" ++ String.join (text.toList.map escape) ++ "\""

end KernelSync.Text
