import Outline.Extent.Braces
import Outline.Extent.Indent
import Outline.Extent.Keyword
import Outline.Extent.Statement

namespace Outline

/-- The lines from `start` to `last`, as far as there are lines. -/
def windowOf (lines : List Text) (start last : Nat) : List Text :=
  (lines.drop start).take (last + 1 - start)

namespace BlockRules

/-- The extent of a declaration with a body. -/
def blockExtent (rules : BlockRules) (start : Nat) (window : List Text) : Extent :=
  if window.isEmpty then .single start
  else
    match rules.style with
    | .braces opener closer => rules.braceExtent opener closer start window
    | .indent => rules.indentExtent start window
    | .keyword => rules.keywordExtent start window

/-- The extent of a body that opens on the first line. -/
def openBlockExtent (rules : BlockRules) (start : Nat) (window : List Text) : Extent :=
  match rules.style with
  | .braces opener closer => rules.pairExtent opener closer start window
  | _ => rules.blockExtent start window

end BlockRules

end Outline
