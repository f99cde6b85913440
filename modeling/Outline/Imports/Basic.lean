import Outline.Pattern.Match
import Outline.Text.Lines

namespace Outline.Imports

/-- The names that are not empty, each once, at its first place; names in `met` are left out. -/
def firstSeen (met : List Text) : List Text → List Text
  | [] => []
  | name :: rest =>
    if name.isEmpty || met.contains name then firstSeen met rest
    else name :: firstSeen (name :: met) rest

/-- The result for the names met in a text. -/
def distinct (names : List Text) : List Text :=
  firstSeen [] (names.map Text.trim)

/-- The item that a pattern marks when it applies at the start of a text. -/
def itemAtStart? (p : Pattern) (t : Text) : Option Text :=
  (p.matchStart? t).bind fun found => found.text? .item

/-- The items that a pattern marks anywhere in a text, each with the place where it starts. -/
def itemsIn (p : Pattern) (t : Text) : List (Nat × Text) :=
  (p.findAll t).filterMap fun found =>
    (found.capture? .item).map fun capture => (capture.start, capture.text)

/-- The texts by increasing place; those at one place keep their order. -/
def inOrder (items : List (Nat × Text)) : List Text :=
  (items.mergeSort fun a b => a.1 ≤ b.1).map Prod.snd

/-- The part of a text before the first occurrence of a separator. -/
def upTo (separator t : Text) : Text :=
  ((Text.cut? separator t).map Prod.fst).getD t

/-- A path between quotes of either shape. -/
def quotedItem : Pattern :=
  .one (.chars "'\"") ++ .item (.run1 (.except "'\"")) ++ .one (.chars "'\"")

end Outline.Imports
