import Outline.Lexing.Line
import Outline.Limits

namespace Outline

/-- How the search for the last line ended. -/
inductive Outcome where
  /-- The end of the body was found. -/
  | matched
  /-- The declaration is complete on its first line. -/
  | singleLine
  /-- A statement ended before any body began. -/
  | terminated
  /-- The lines ran out before the end of the body. -/
  | unterminated
  /-- A ceiling stopped the search. -/
  | ceilingHit
deriving DecidableEq, Repr, Inhabited

/-- The lines of a declaration. -/
structure Extent where
  /-- The line on which the body begins, or the last line of the head. -/
  headerEnd : Nat
  /-- The last line. -/
  last : Nat
  outcome : Outcome
deriving DecidableEq, Repr, Inhabited

namespace Extent

/-- A declaration on one line. -/
def single (line : Nat) : Extent :=
  ⟨line, line, .singleLine⟩

/-- Whether the last line is a guess. -/
def isDegraded (extent : Extent) : Bool :=
  extent.outcome == .unterminated || extent.outcome == .ceilingHit

/-- Whether lines after the head belong to a body. -/
def hasInterior (extent : Extent) : Bool :=
  extent.outcome != .singleLine && extent.outcome != .terminated && extent.headerEnd < extent.last

end Extent

/-- How bodies are delimited. -/
inductive BlockStyle where
  /-- By a pair of characters. -/
  | braces (opener closer : Char)
  /-- By indentation deeper than the first line. -/
  | indent
  /-- By words that open a block and the word `end`. -/
  | keyword
deriving DecidableEq, Repr

/-- What ends a statement that has no body. -/
inductive Terminator where
  | semicolon
  | newline
deriving DecidableEq, Repr

/-- All that the search for the last line depends on. -/
structure BlockRules where
  lexicon : Lexicon
  style : BlockStyle
  terminator : Terminator
  limits : SearchLimits

namespace BlockRules

/-- The guess for a body without an end: some lines after `start`, but within the lines searched and not
before the head ends. -/
def fallback (rules : BlockRules) (start last headerEnd : Nat) (outcome : Outcome) : Extent :=
  ⟨headerEnd, max (min (start + rules.limits.fallbackSpan) last) headerEnd, outcome⟩

/-- Whether a ceiling forbids to look at line `index`. -/
def exceeds (rules : BlockRules) (start index iterations : Nat) : Bool :=
  start + rules.limits.maxBlockSpan < index || rules.limits.maxIterations < iterations

end BlockRules

/-- Whether a bracket of any of the three shapes opens. -/
def isOpenBracket (c : Char) : Bool :=
  c == '(' || c == '[' || c == '{'

/-- Whether a bracket of any of the three shapes closes. -/
def isCloseBracket (c : Char) : Bool :=
  c == ')' || c == ']' || c == '}'

/-- The balance of brackets after one more character. -/
def bracketStep (balance : Int) (c : Char) : Int :=
  if isOpenBracket c then balance + 1 else if isCloseBracket c then balance - 1 else balance

end Outline
