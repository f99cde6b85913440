import Outline.Text.Basic

namespace Outline

/-- Where a language keeps its documentation. -/
structure DocStyle where
  /-- Marks of documentation lines. -/
  lineMarks : List Text
  /-- Opening and closing mark of documentation blocks. -/
  block : Option (Text × Text)
  /-- Whether the first string literal of a body documents it. -/
  bodyString : Bool
  /-- Whether a string in triple quotes documents the declaration after it. -/
  precedingString : Bool
deriving DecidableEq, Repr

/-- The lines trimmed, without blank ones at either end, as one text. -/
def cleanLines (parts : List Text) : Text :=
  let trimmed := (parts.map Text.trim).dropWhile List.isEmpty
  Text.join ['\n'] (trimmed.reverse.dropWhile List.isEmpty).reverse

namespace DocStyle

/-- The text behind one mark. A mark of three bytes or more that goes on with its last character is a
banner, and documents nothing. -/
def markedLine? (trimmed mark : Text) : Option Text :=
  match Text.strip? mark trimmed with
  | none => none
  | some rest =>
    if 3 ≤ Text.byteSize mark && Text.startsWith (mark.getLast?.toList) rest then none
    else some (Text.trimEnd ((Text.strip? [' '] rest).getD rest))

/-- The text of a documentation line, without its mark. -/
def docLine? (style : DocStyle) (trimmed : Text) : Option Text :=
  style.lineMarks.findSome? (markedLine? trimmed)

/-- Whether a line opens a documentation block. A block that closes with its opening is a comment. -/
def startsBlockDoc (style : DocStyle) (trimmed : Text) : Bool :=
  match style.block with
  | some (opener, closer) =>
    Text.startsWith opener trimmed && !Text.startsWith (opener ++ closer.getLast?.toList) trimmed
  | none => false

/-- A line on which a documentation block opens and closes and code follows: all up to the end of the
block, and the rest. -/
def codeAfterBlockDoc? (style : DocStyle) (line : Text) : Option (Text × Text) :=
  match style.block with
  | none => none
  | some (opener, closer) =>
    match Text.cut? opener line with
    | none => none
    | some (before, opened) =>
      match Text.cut? closer opened with
      | none => none
      | some (doc, code) =>
        if Text.isBlankText code then none else some (before ++ opener ++ doc ++ closer, code)

/-- A line of a block without its margin: a star and one space after it. -/
def stripMargin (t : Text) : Text :=
  let inner := Text.trimStart t
  match Text.strip? ['*'] inner with
  | some rest => (Text.strip? [' '] rest).getD rest
  | none => inner

/-- Collects the lines of a block whose first line has been read as `text`; the result counts the lines
taken after it. -/
def collectBlock (closer : Text) : Text → List Text → List Text × Nat
  | text, [] =>
    let inner := ((Text.cut? closer text).map Prod.fst).getD text
    ([Text.trimEnd (stripMargin inner)], 0)
  | text, next :: rest =>
    match Text.cut? closer text with
    | some (inner, _) => ([Text.trimEnd (stripMargin inner)], 0)
    | none =>
      let later := collectBlock closer (Text.trim next) rest
      (Text.trimEnd (stripMargin text) :: later.1, later.2 + 1)

/-- The text of the block that opens on a line, and how many of the following lines belong to it. A
block that is never closed takes all of them. -/
def collectBlockDoc (style : DocStyle) (line : Text) (following : List Text) : Text × Nat :=
  match style.block with
  | none => ([], 0)
  | some (opener, closer) =>
    let trimmed := Text.trim line
    let collected := collectBlock closer ((Text.strip? opener trimmed).getD trimmed) following
    (cleanLines collected.1, collected.2)

end DocStyle

end Outline
