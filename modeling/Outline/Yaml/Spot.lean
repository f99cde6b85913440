import Outline.Text.Utf8

namespace Outline.Yaml

/-- White space inside a line. -/
def isSpace (c : Char) : Bool :=
  c == ' ' || c == '\t'

/-- Characters that end a line. -/
def isBreak (c : Char) : Bool :=
  c == '\n' || c == '\r' || c == '\u0085' || c == '\u2028' || c == '\u2029'

/-- Characters that a document may hold. -/
def isAllowed (c : Char) : Bool :=
  let n := c.toNat
  n == 0x09 || n == 0x0A || n == 0x0D || (0x20 ≤ n && n ≤ 0x7E) || n == 0x85 ||
    (0xA0 ≤ n && n ≠ 0xFFFE && n ≠ 0xFFFF)

/-- Whether the text is at its end, at white space or at a line break. -/
def atGap : Text → Bool
  | [] => true
  | c :: _ => isSpace c || isBreak c

/-- Whether the text is at its end or at a line break. -/
def atLineEnd : Text → Bool
  | [] => true
  | c :: _ => isBreak c

/-- A place in a text. -/
structure Spot where
  /-- What is still to be read. -/
  rest : Text
  /-- The number of characters before it. -/
  index : Nat
  line : Nat
  column : Nat
deriving Repr

namespace Spot

/-- The start of a text. -/
def start (t : Text) : Spot :=
  ⟨t, 0, 0, 0⟩

/-- The spot after `n` more characters of the line. -/
def skip (spot : Spot) (n : Nat) : Spot :=
  { spot with rest := spot.rest.drop n, index := spot.index + n, column := spot.column + n }

/-- The characters at a spot that satisfy a condition, and the spot after them. -/
def span (p : Char → Bool) (spot : Spot) : Text × Spot :=
  let run := spot.rest.takeWhile p
  (run, spot.skip run.length)

/-- The line break at a spot and the spot after it. A scalar keeps the break as a line feed, unless
it separates lines or paragraphs by a character of its own. -/
def break? (spot : Spot) : Option (Text × Spot) :=
  match spot.rest with
  | '\r' :: '\n' :: rest => some (['\n'], ⟨rest, spot.index + 2, spot.line + 1, 0⟩)
  | c :: rest =>
    if isBreak c then
      let kept := if c == '\u2028' || c == '\u2029' then c else '\n'
      some ([kept], ⟨rest, spot.index + 1, spot.line + 1, 0⟩)
    else none
  | [] => none

/-- Whether a mark between documents stands here: three dashes or three dots alone at the start of a
line. -/
def atMark (spot : Spot) : Bool :=
  spot.column == 0 && atGap (spot.rest.drop 3) &&
    (Text.startsWith "---".toList spot.rest || Text.startsWith "...".toList spot.rest)

/-- The spot after a comment, if one stands here. -/
def skipComment (spot : Spot) : Spot :=
  if Text.startsWhere (· == '#') spot.rest then (spot.span fun c => !isBreak c).2 else spot

/-- The start of the next line, if white space and a comment are all that the line still holds. -/
def nextLine? (spot : Spot) : Option Spot :=
  let spot := (spot.span isSpace).2.skipComment
  if atLineEnd spot.rest then some ((spot.break?.map Prod.snd).getD spot) else none

end Spot

end Outline.Yaml
