import LiveDiagram.Text.Unprintable

/-!
# Text quoted for a message

A message that names a piece of input shows it between double quotes, with every character that
would end the quotes, break the line or stay invisible written as an escape.
-/

namespace LiveDiagram.Quoted

/-- The digits of a code point in lower-case hexadecimal, without leading zeros. -/
def codePoint (c : Char) : String :=
  String.ofList (Nat.toDigits 16 c.toNat)

/-- One character inside the quotes. -/
def escape (c : Char) : String :=
  if c = '\x00' then "\\0"
  else if c = '\t' then "\\t"
  else if c = '\n' then "\\n"
  else if c = '\r' then "\\r"
  else if c = '"' then "\\\""
  else if c = '\\' then "\\\\"
  else if c.toNat < 0x20 || c.toNat = 0x7F || Unprintable.contains c then
    "\\u\x7b" ++ codePoint c ++ "\x7d"
  else c.toString

/-- The whole text, quoted. -/
def quote (s : String) : String :=
  "\"" ++ String.join (s.toList.map escape) ++ "\""

end LiveDiagram.Quoted
