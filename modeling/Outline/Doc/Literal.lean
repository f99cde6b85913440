import Outline.Doc.Comment

namespace Outline

/-- Letters that may stand before the quote of a string literal, at most two of them. -/
def literalLetters : Text :=
  "rRuUbBfF".toList

/-- Quotes of a string literal, the longer ones first. -/
def literalQuotes : List Text :=
  [['"', '"', '"'], ['\'', '\'', '\''], ['"'], ['\'']]

/-- The quote that opens a literal and what follows it. -/
def openQuote? (t : Text) : Option (Text × Text) :=
  literalQuotes.findSome? fun quote => (Text.strip? quote t).map fun rest => (quote, rest)

/-- The quote of the literal that opens a text, after at most two letters, and what follows it. -/
def openLiteral? (t : Text) : Option (Text × Text) :=
  let letters := t.takeWhile fun c => literalLetters.elem c
  if letters.length ≤ 2 then openQuote? (t.drop letters.length) else none

/-- The lines of a literal up to its closing quote, and how many lines they are. -/
def collectLiteral (quote : Text) : List Text → Option (List Text × Nat)
  | [] => none
  | line :: rest =>
    match Text.cut? quote line with
    | some (text, _) => some ([text], 1)
    | none => (collectLiteral quote rest).map fun later => (line :: later.1, later.2 + 1)

/-- The text of the string literal that opens a line, and how many of the following lines belong to it.
A literal in single quotes ends on its line. -/
def collectStringDoc? (line : Text) (following : List Text) : Option (Text × Nat) :=
  match openLiteral? (Text.trimStart line) with
  | none => none
  | some (quote, body) =>
    match Text.cut? quote body with
    | some (text, _) => some (Text.trim text, 0)
    | none =>
      if quote.length = 1 then none
      else
        (collectLiteral quote following).map fun later => (cleanLines (body :: later.1), later.2)

/-- The string literal that opens a body, blank lines aside, unless it is empty. -/
def bodyDocstring? (body : List Text) : Option Text :=
  match body.dropWhile Text.isBlankText with
  | [] => none
  | line :: following =>
    match collectStringDoc? line following with
    | some (text, _) => if text.isEmpty then none else some text
    | none => none

end Outline
