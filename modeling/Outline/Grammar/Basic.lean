import Outline.Attribute
import Outline.Declaration.Basic
import Outline.Doc.Literal
import Outline.Extent.Checked
import Outline.Grammar.Naming
import Outline.Language

namespace Outline

/-- How far a declaration goes. -/
inductive Body where
  /-- To the end of a body. -/
  | block
  /-- To the end of a statement. -/
  | statement
  /-- To the end of its line. -/
  | line
deriving DecidableEq, Repr

/-- A rule by which a line declares something. Its pattern applies at the start of the line. -/
structure Rule where
  kind : Kind
  pattern : Pattern
  body : Body
  naming : Naming

/-- A rule whose pattern marks the name. -/
def Rule.marked (kind : Kind) (body : Body) (pattern : Pattern) : Rule :=
  ⟨kind, pattern, body, .marked⟩

/-- A rule that finds the name in another way. -/
def Rule.derived (kind : Kind) (body : Body) (naming : Naming) (pattern : Pattern) : Rule :=
  ⟨kind, pattern, body, naming⟩

/-- What is particular to a language. -/
structure Grammar where
  language : Language
  lexicon : Lexicon
  style : BlockStyle
  terminator : Terminator
  /-- Tried in order; the first that gives a name wins. -/
  rules : List Rule
  docs : DocStyle
  attributes : AttributeStyle
  /-- Words that are recorded when they stand before the name. -/
  modifiers : List Text
  /-- Words that are never names. -/
  reserved : List Text
  /-- Whether lines inside brackets that an undeclared line left open declare nothing. -/
  bracketContinuations : Bool

/-- What a line declares: the rule that applies, the name, and the code before the name. -/
structure Heading where
  rule : Rule
  name : Text
  before : Text

namespace Grammar

/-- The rules for the ends of bodies and statements under given limits. -/
def blockRules (grammar : Grammar) (limits : Limits) : BlockRules :=
  ⟨grammar.lexicon, grammar.style, grammar.terminator, limits.toSearchLimits⟩

/-- Whether a trimmed line opens with a comment. -/
def isComment (grammar : Grammar) (trimmed : Text) : Bool :=
  !(grammar.lexicon.hashAttributes && Text.startsWith ['#', '['] trimmed) &&
    (grammar.lexicon.lineComments.any (fun mark => Text.startsWith mark trimmed) ||
      (grammar.lexicon.blockCommentOpener? trimmed).isSome)

/-- How many characters precede the name of a match: those before the marked name or else before the
first place where the name occurs. -/
def nameStart (view name : Text) (found : Cursor) : Nat :=
  match found.capture? .name with
  | some capture => capture.start
  | none =>
    match Text.cut? name view with
    | some (before, _) => before.length
    | none => view.length

/-- What a line declares by one rule. The `hidden` bytes before the code count as spaces. -/
def headingBy? (grammar : Grammar) (hidden : Nat) (code : Text) (rule : Rule) : Option Heading :=
  let view := Text.spaces hidden ++ code
  match rule.pattern.matchStart? view with
  | none => none
  | some found =>
    match rule.naming.name? found with
    | none => none
    | some name =>
      if name.isEmpty || grammar.reserved.contains name then none
      else some ⟨rule, name, code.take (nameStart view name found - hidden)⟩

/-- What a line declares, if anything. -/
def heading? (grammar : Grammar) (hidden : Nat) (code : Text) : Option Heading :=
  grammar.rules.findSome? (grammar.headingBy? hidden code)

/-- The extent of a declaration whose line opens the window. -/
def extent (grammar : Grammar) (limits : Limits) (body : Body) (index : Nat) (window : List Text) :
    Extent :=
  match body with
  | .block => (grammar.blockRules limits).blockExtent index window
  | .statement => (grammar.blockRules limits).statementExtent index window
  | .line => .single index

/-- The extent of a declaration whose line opens the window, with checked sums. -/
def extent? (grammar : Grammar) (limits : Limits) (body : Body) (index : Nat) (window : List Text) :
    Except Breakdown Extent :=
  match body with
  | .block => (grammar.blockRules limits).blockExtent? index window
  | .statement => (grammar.blockRules limits).statementExtent? index window
  | .line => .ok (.single index)

end Grammar

end Outline
