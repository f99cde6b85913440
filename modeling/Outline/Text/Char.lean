import Outline.Text.AlphabeticTable
import Outline.Text.NumericTable
import Outline.Text.WordTable

namespace Outline

/-- Whether a code point lies in one of the closed intervals. -/
def inIntervals (intervals : List (Nat × Nat)) (code : Nat) : Bool :=
  intervals.any fun interval => interval.1 ≤ code && code ≤ interval.2

/-- White space, by the Unicode property White_Space. -/
def isBlank (c : Char) : Bool :=
  let code := c.toNat
  (9 ≤ code && code ≤ 13) || code == 0x20 || code == 0x85 || code == 0xA0 || code == 0x1680 ||
    (0x2000 ≤ code && code ≤ 0x200A) || code == 0x2028 || code == 0x2029 || code == 0x202F ||
    code == 0x205F || code == 0x3000

/-- ASCII letters of either case. -/
def isAsciiLetter (c : Char) : Bool :=
  ('a' ≤ c && c ≤ 'z') || ('A' ≤ c && c ≤ 'Z')

/-- ASCII digits. -/
def isAsciiDigit (c : Char) : Bool :=
  '0' ≤ c && c ≤ '9'

/-- The value of a hexadecimal digit. -/
def hexValue? (c : Char) : Option Nat :=
  if '0' ≤ c && c ≤ '9' then some (c.toNat - 48)
  else if 'a' ≤ c && c ≤ 'f' then some (c.toNat - 87)
  else if 'A' ≤ c && c ≤ 'F' then some (c.toNat - 55)
  else none

/-- Letters, by the Unicode property Alphabetic. -/
def isLetter (c : Char) : Bool :=
  if c.toNat < 0x80 then isAsciiLetter c else inIntervals Text.alphabeticIntervals c.toNat

/-- Numbers of every kind: decimal digits, letter numbers and other numbers. -/
def isNumber (c : Char) : Bool :=
  if c.toNat < 0x80 then isAsciiDigit c else inIntervals Text.numericIntervals c.toNat

/-- Characters of an identifier: letters, numbers and the underscore. -/
def isNameChar (c : Char) : Bool :=
  isLetter c || isNumber c || c == '_'

/-- Characters of a word: letters, marks, decimal digits, connectors and join controls. Unlike
an identifier, a word admits combining marks and refuses letter numbers, fractions and the letters of the
latest version of the standard. -/
def isWordChar (c : Char) : Bool :=
  if c.toNat < 0x80 then isAsciiLetter c || isAsciiDigit c || c == '_'
  else
    (inIntervals Text.alphabeticIntervals c.toNat && !inIntervals Text.recentLetterIntervals c.toNat) ||
      inIntervals Text.wordExtraIntervals c.toNat

end Outline
