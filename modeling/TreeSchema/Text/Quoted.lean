import TreeSchema.Text.Hexadecimal
import TreeSchema.Text.Printable

/-!
# Quoted text

The literal of a text is the text between quotes. The quotes are single, or double when the text
holds a single quote and no double one. The backslash and the enclosing quote are escaped, and so is
each character that is not printable: a tab, a line feed and a carriage return by a letter, any
other by its code in two, four or eight hexadecimal digits. The literal of an octet string has the
mark `b` in front and keeps ASCII alone.
-/

namespace TreeSchema.Text

/-- The quote that encloses a text. -/
def quoteFor (cs : List Char) : Char :=
  if cs.contains '\'' && !cs.contains '"' then '"' else '\''

/-- The escape of a character by its code. -/
def codeEscape (n : Nat) : List Char :=
  if n < 0x100 then '\\' :: 'x' :: hexDigits 2 n
  else if n < 0x10000 then '\\' :: 'u' :: hexDigits 4 n
  else '\\' :: 'U' :: hexDigits 8 n

/-- A character as it stands between the quotes `quote`. -/
def quotedChar (quote c : Char) : List Char :=
  if c = '\\' || c = quote then ['\\', c]
  else if c = '\t' then ['\\', 't']
  else if c = '\n' then ['\\', 'n']
  else if c = '\r' then ['\\', 'r']
  else if isPrintable c then [c]
  else codeEscape c.toNat

/-- The literal of a text, as characters. -/
def quotedChars (cs : List Char) : List Char :=
  let quote := quoteFor cs
  quote :: cs.flatMap (quotedChar quote) ++ [quote]

/-- The literal of a text. -/
def quoted (s : String) : String :=
  String.ofList (quotedChars s.toList)

/-- The literal of an octet string. -/
def quotedOctets (octets : List UInt8) : String :=
  let cs := octets.map fun b => Char.ofNat b.toNat
  let quote := quoteFor cs
  let inside := cs.flatMap fun c =>
    if c.toNat < 0x80 then quotedChar quote c else codeEscape c.toNat
  String.ofList ('b' :: quote :: inside ++ [quote])

end TreeSchema.Text
