import Outline.Pattern.CharClass

namespace Outline

/-- The parts of a match that a pattern can remember. -/
inductive Group where
  /-- The name that a declaration introduces. -/
  | name
  /-- What stands where a type would. -/
  | type
  /-- A stretch of text that is analysed further. -/
  | body
  /-- What an import refers to. -/
  | item
deriving DecidableEq, Repr

/-- Conditions on a place that take no characters. -/
inductive Assertion where
  /-- Nothing comes before. -/
  | textStart
  /-- Nothing comes before, or a line feed does. -/
  | lineStart
  /-- Nothing follows. -/
  | textEnd
  /-- A word begins or ends here. -/
  | wordEdge
deriving DecidableEq, Repr

/-- A pattern of text. -/
inductive Pattern where
  /-- Nothing. -/
  | empty
  /-- One character of a class. -/
  | one (cls : CharClass)
  /-- Any number of characters of a class. -/
  | run (cls : CharClass) (greedy : Bool)
  /-- A condition on the place. -/
  | assert (condition : Assertion)
  /-- One after the other. -/
  | seq (first second : Pattern)
  /-- The first or, failing that, the second. -/
  | alt (first second : Pattern)
  /-- Any number of rounds. The body takes at least one character. -/
  | star (body : Pattern) (greedy : Bool)
  /-- A part that is remembered. -/
  | group (label : Group) (body : Pattern)
deriving DecidableEq, Repr

namespace Pattern

instance : Append Pattern := ⟨seq⟩

/-- The characters one after the other. -/
def ofText : Text → Pattern
  | [] => .empty
  | [c] => .one (.char c)
  | c :: rest => .seq (.one (.char c)) (ofText rest)

/-- A fixed text. -/
def lit (s : String) : Pattern :=
  ofText s.toList

/-- Any white space, or none. -/
def blanks : Pattern :=
  .run .blank true

/-- At least one character of a class. -/
def run1 (cls : CharClass) : Pattern :=
  .one cls ++ .run cls true

/-- Any number of characters of a class. -/
def run0 (cls : CharClass) : Pattern :=
  .run cls true

/-- White space. -/
def gap : Pattern :=
  run1 .blank

/-- The pattern or nothing. -/
def opt (p : Pattern) : Pattern :=
  .alt p .empty

/-- As many rounds as possible. -/
def many (p : Pattern) : Pattern :=
  .star p true

/-- As many rounds as possible, but one at least. -/
def many1 (p : Pattern) : Pattern :=
  p ++ .star p true

/-- As few rounds as possible. -/
def few (p : Pattern) : Pattern :=
  .star p false

/-- As few rounds as possible, but one at least. -/
def few1 (p : Pattern) : Pattern :=
  p ++ .star p false

/-- The first of the patterns that fits. -/
def anyOf : List Pattern → Pattern
  | [] => .empty
  | [p] => p
  | p :: rest => .alt p (anyOf rest)

/-- The first of the words that fits. -/
def words (list : List String) : Pattern :=
  anyOf (list.map lit)

/-- A word edge. -/
def edge : Pattern :=
  .assert .wordEdge

/-- A word of ASCII letters, underscores and, after the first, any word characters. -/
def ident : Pattern :=
  .one (.letter ||| .char '_') ++ .run .word true

/-- A part that is the name of a declaration. -/
def named (p : Pattern) : Pattern :=
  .group .name p

/-- A part that stands where a type would. -/
def typed (p : Pattern) : Pattern :=
  .group .type p

/-- A part that an import refers to. -/
def item (p : Pattern) : Pattern :=
  .group .item p

/-- A fixed text and white space after it. -/
def word (s : String) : Pattern :=
  lit s ++ gap

/-- Possibly a fixed text and white space after it. -/
def optWord (s : String) : Pattern :=
  opt (word s)

end Pattern

end Outline
