import Outline.Text.Basic

namespace Outline

/-- How a string literal begins and ends. -/
inductive StringRule where
  /-- Fixed delimiters. With `escapes` a backslash hides the character after it, and without
  `multiline` the literal ends with its line at the latest. -/
  | quoted (opener closer : Text) (escapes multiline : Bool)
  /-- A raw literal between fences of `#`: one of the openers, at least `minHashes` marks, and one
  quote or, with `triple`, three quotes. -/
  | fenced (openers : List Text) (minHashes : Nat) (triple : Bool)
  /-- A raw literal `R"tag(…)tag"` with a tag of its author's choice. -/
  | tagged
deriving DecidableEq, Repr

/-- Comments and string literals of a language. -/
structure Lexicon where
  /-- Marks that begin a comment up to the end of the line. -/
  lineComments : List Text
  /-- Opening and closing mark of a comment that may span lines. -/
  blockComment : Option (Text × Text)
  /-- Whether comments with two marks nest. -/
  nestedComments : Bool
  /-- Rules for string literals in the order in which they are tried. -/
  strings : List StringRule
  /-- Whether a single quote begins a character literal when it is closed right away. -/
  charLiterals : Bool
  /-- Whether `#[` is an attribute although `#` begins a comment. -/
  hashAttributes : Bool
deriving DecidableEq, Repr

/-- Where a reader stands between two characters. -/
inductive LexState where
  /-- In code. -/
  | code
  /-- In a comment with two marks, nested to a depth. -/
  | comment (depth : Nat)
  /-- In a string literal that ends at `close`. -/
  | literal (close : Text) (escapes multiline : Bool)
deriving DecidableEq, Repr, Inhabited

namespace LexState

/-- Whether the reader is in code. -/
def inCode : LexState → Bool
  | .code => true
  | _ => false

/-- How many moves in a row can take no characters and yet come to an end: every level of a comment can end at an
empty mark, and what begins in code after it can begin with one. A reader that makes more of them makes no other. -/
def patience : LexState → Nat
  | .comment depth => depth + 2
  | _ => 2

/-- The state at the start of the next line: a literal of one line ends with its line. -/
def atLineEnd : LexState → LexState
  | .literal _ _ false => .code
  | state => state

end LexState

end Outline
