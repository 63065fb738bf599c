import TemplateAnalysis.Hexadecimal

/-!
# Quoted text

Text between double quotes: quotes and backslashes are escaped, line feed,
carriage return, tab and null have short escapes, and every other control
character is written as its code point. All other characters stand for
themselves.
-/

namespace TemplateAnalysis.Quoted

/-- The control characters: those below the space, and those around the end of
the seven-bit code. -/
def isControl (c : Char) : Bool := c.toNat < 0x20 || (0x7f ≤ c.toNat && c.toNat < 0xa0)

def escape (c : Char) : String :=
  if c = '"' then "\\\""
  else if c = '\\' then "\\\\"
  else if c = '\n' then "\\n"
  else if c = '\r' then "\\r"
  else if c = '\t' then "\\t"
  else if c.toNat = 0 then "\\0"
  else if isControl c then "\\u\x7b" ++ Hexadecimal.number c.toNat ++ "\x7d"
  else c.toString

def text (s : String) : String := "\"" ++ String.join (s.toList.map escape) ++ "\""

end TemplateAnalysis.Quoted
