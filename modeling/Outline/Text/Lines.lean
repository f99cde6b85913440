import Outline.Text.Basic

namespace Outline.Text

/-- Drops a carriage return from the end of a line given back to front. -/
def dropReturn : Text → Text
  | '\r' :: t => t
  | t => t

/-- Lines of the remaining text, where `current` is the unfinished line back to front. -/
def linesFrom (current : Text) : Text → List Text
  | [] => if current.isEmpty then [] else [current.reverse]
  | c :: t =>
    if c = '\n' then (dropReturn current).reverse :: linesFrom [] t else linesFrom (c :: current) t

/-- The lines of a text, without their line ends. -/
def lines (t : Text) : List Text :=
  linesFrom [] t

end Outline.Text
