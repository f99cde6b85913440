import Outline.Text.Basic
import Outline.Text.CaseTable

namespace Outline.Text

/-- Whether a letter has case. -/
def isCased (c : Char) : Bool :=
  if c.toNat < 0x80 then isAsciiLetter c else inIntervals casedIntervals c.toNat

/-- Whether a character is skipped when looking for the cased letter beside a sigma. -/
def isCaseIgnorable (c : Char) : Bool :=
  if c.toNat < 0x80 then
    c == '\'' || c == '.' || c == ':' || c == '^' || c == '\u0060'
  else inIntervals caseIgnorableIntervals c.toNat

/-- The lower-case image of one character, apart from its neighbours. -/
def lowerChar (c : Char) : Char :=
  let code := c.toNat
  if code < 0x80 then
    if 'A' ≤ c && c ≤ 'Z' then Char.ofNat (code + 32) else c
  else
    match lowerRuns.find? fun run =>
        run.1 ≤ code && code ≤ run.2.1 && (code - run.1) % run.2.2.1 == 0 with
    | some run => Char.ofNat (run.2.2.2 + (code - run.1))
    | none => c

/-- Whether the nearest character that is not skipped exists and has case. -/
def meetsCased (t : Text) : Bool :=
  startsWhere isCased (t.dropWhile isCaseIgnorable)

/-- Lower-cases the rest of a text whose earlier part is `before`, back to front. -/
def lowerFrom (before : Text) : Text → Text
  | [] => []
  | c :: t =>
    let image :=
      if c = 'Σ' then if meetsCased before && !meetsCased t then ['ς'] else ['σ']
      else if c = 'İ' then ['i', '\u0307']
      else [lowerChar c]
    image ++ lowerFrom (c :: before) t

/-- The text in lower case. -/
def lower (t : Text) : Text :=
  lowerFrom [] t

end Outline.Text
