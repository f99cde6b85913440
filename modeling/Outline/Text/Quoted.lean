import Outline.Text.Basic
import Outline.Text.PrintTable

namespace Outline.Text

/-- Whether a character is shown as a code point escape. -/
def needsCodeEscape (c : Char) : Bool :=
  if c.toNat < 0x80 then c.toNat < 0x20 || c.toNat == 0x7F
  else inIntervals glyphlessIntervals c.toNat || inIntervals unseenIntervals c.toNat

/-- A character as it stands in a quoted text. -/
def quoteChar (c : Char) : Text :=
  if c = '\x00' then ['\\', '0']
  else if c = '\t' then ['\\', 't']
  else if c = '\r' then ['\\', 'r']
  else if c = '\n' then ['\\', 'n']
  else if c = '\\' || c = '"' then ['\\', c]
  else if needsCodeEscape c then "\\u\x7b".toList ++ Nat.toDigits 16 c.toNat ++ ['}']
  else [c]

/-- The text in double quotes. -/
def quote (t : Text) : Text :=
  '"' :: t.flatMap quoteChar ++ ['"']

end Outline.Text
