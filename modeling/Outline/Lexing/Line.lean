import Outline.Lexing.Opening
import Outline.Word

namespace Outline

/-- What a reader does at a character. -/
inductive Move where
  /-- A comment takes the rest of the line. -/
  | endLine
  /-- The character is code. -/
  | code
  /-- A token of some characters that are not code, after which the state is `next`. -/
  | token (length : Nat) (next : LexState)
deriving DecidableEq, Repr

/-- What was read of a line. -/
structure Reading where
  /-- The characters of code, each with its offset in bytes. -/
  code : List (Nat × Char)
  /-- How many steps the reader took. -/
  examined : Nat
  /-- The state at the start of the next line. -/
  state : LexState
  /-- Whether the reader came to the end of the line, and did not stay for ever at some place of it. -/
  finished : Bool
deriving DecidableEq, Repr

/-- The characters of code alone. -/
def Reading.codeText (reading : Reading) : Text :=
  reading.code.map Prod.snd

namespace Lexicon

/-- The move inside a string literal. -/
def literalMove (close : Text) (escapes multiline : Bool) (rest : Text) : Move :=
  if escapes && Text.startsWith ['\\'] rest then .token 2 (.literal close escapes multiline)
  else if Text.startsWith close rest then .token close.length .code
  else .token 1 (.literal close escapes multiline)

/-- The move inside a comment with two marks. -/
def commentMove (lexicon : Lexicon) (depth : Nat) (rest : Text) : Move :=
  match lexicon.blockComment with
  | none => .token 0 .code
  | some (opener, closer) =>
    if Text.startsWith closer rest then
      .token closer.length (if depth ≤ 1 then .code else .comment (depth - 1))
    else if lexicon.nestedComments && Text.startsWith opener rest then
      .token opener.length (.comment (depth + 1))
    else .token 1 (.comment depth)

/-- Whether a comment up to the end of the line begins here. -/
def startsLineComment (lexicon : Lexicon) (rest : Text) : Bool :=
  !(lexicon.hashAttributes && Text.startsWith ['#', '['] rest) &&
    lexicon.lineComments.any fun mark => Text.startsWith mark rest

/-- Whether a comment with two marks begins here, and the length of its mark. -/
def blockCommentOpener? (lexicon : Lexicon) (rest : Text) : Option Nat :=
  match lexicon.blockComment with
  | some (opener, _) => if Text.startsWith opener rest then some opener.length else none
  | none => none

/-- The length of the character literal that begins here, if one does. -/
def charLiteral? (lexicon : Lexicon) (rest : Text) : Option Nat :=
  match rest with
  | '\'' :: after => if lexicon.charLiterals then charLiteralLength? after else none
  | _ => none

/-- The move in code: comments come before string literals and these before character literals. -/
def codeMove (lexicon : Lexicon) (before rest : Text) : Move :=
  match lexicon.blockCommentOpener? rest with
  | some length => .token length (.comment 1)
  | none =>
    if lexicon.startsLineComment rest then .endLine
    else
      match lexicon.strings.findSome? (StringRule.open? before rest) with
      | some (length, next) => .token length next
      | none =>
        match lexicon.charLiteral? rest with
        | some length => .token length .code
        | none => .code

/-- The move at a position, given what precedes it on its line (back to front) and what follows. -/
def move (lexicon : Lexicon) (state : LexState) (before rest : Text) : Move :=
  match state with
  | .code => lexicon.codeMove before rest
  | .comment depth => lexicon.commentMove depth rest
  | .literal close escapes multiline => literalMove close escapes multiline rest

/-- The first move that takes characters, with the number of moves made. A mark that is empty takes none, and a
reader that loses its patience with such moves makes them for ever. -/
def settledMove? (lexicon : Lexicon) (before rest : Text) : (patience : Nat) → LexState → Option (Nat × Move)
  | patience, state =>
    match lexicon.move state before rest with
    | .token 0 next =>
      match patience with
      | 0 => none
      | patience + 1 =>
        (settledMove? lexicon before rest patience next).map fun settled => (settled.1 + 1, settled.2)
    | made => some (1, made)

/-- Reads the rest of a line from byte `offset` on. The first `skip` characters belong to a token that
was recognised before; `before` is what precedes on the line, back to front. -/
def readFrom (lexicon : Lexicon) : (skip offset : Nat) → LexState → (before rest : Text) → Reading
  | _, _, state, _, [] => ⟨[], 0, state.atLineEnd, true⟩
  | skip + 1, offset, state, before, c :: rest =>
    readFrom lexicon skip (offset + c.utf8Size) state (c :: before) rest
  | 0, offset, state, before, c :: rest =>
    match lexicon.settledMove? before (c :: rest) state.patience state with
    | none => ⟨[], 0, .code, false⟩
    | some (steps, .endLine) => ⟨[], steps, .code, true⟩
    | some (steps, .code) =>
      let later := readFrom lexicon 0 (offset + c.utf8Size) .code (c :: before) rest
      ⟨(offset, c) :: later.code, steps + later.examined, later.state, later.finished⟩
    | some (steps, .token length next) =>
      let later := readFrom lexicon (length - 1) (offset + c.utf8Size) next (c :: before) rest
      ⟨later.code, steps + later.examined, later.state, later.finished⟩

/-- Reads a line that begins in the given state. -/
def readLine (lexicon : Lexicon) (state : LexState) (line : Text) : Reading :=
  lexicon.readFrom 0 0 state [] line

/-- Reads a line, unless the reader never comes to its end. -/
def readLine? (lexicon : Lexicon) (state : LexState) (line : Text) : Except Breakdown Reading :=
  let reading := lexicon.readLine state line
  if reading.finished then .ok reading else .error .endless

end Lexicon

end Outline
