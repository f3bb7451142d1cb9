/-!
# Quoted text

A text between double quotes, with escapes for the quote, the backslash and the control
characters: the common ones by a letter, the others by their code point in lower-case
hexadecimal. Texts to be quoted are ASCII; a character beyond ASCII is written as it is.
-/

namespace SpaceTypes.Text

/-- How a character stands between the quotes. -/
def escape (c : Char) : String :=
  if c = '"' then "\\\""
  else if c = '\\' then "\\\\"
  else if c = '\n' then "\\n"
  else if c = '\t' then "\\t"
  else if c = '\r' then "\\r"
  else if c.toNat = 0 then "\\0"
  else if c.toNat < 0x20 || c.toNat = 0x7F then
    "\\u\x7b" ++ String.ofList (Nat.toDigits 16 c.toNat) ++ "\x7d"
  else c.toString

/-- The text between double quotes. -/
def quoted (text : String) : String :=
  "\"" ++ String.join (text.toList.map escape) ++ "\""

end SpaceTypes.Text
