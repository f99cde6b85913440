import Outline.Text.Basic

namespace Outline

/-- How a word stands out. -/
inductive Tone where
  | bold
  | dimmed
  | red
  | green
  | yellow
  | cyan
  | boldBlue
  | boldCyan
deriving DecidableEq, Repr

/-- The terminal code of a tone. -/
def Tone.code : Tone → String
  | .bold => "1"
  | .dimmed => "2"
  | .red => "31"
  | .green => "32"
  | .yellow => "33"
  | .cyan => "36"
  | .boldBlue => "1;34"
  | .boldCyan => "1;36"

/-- Whether words are coloured, or all written plainly. -/
inductive Palette where
  | plain
  | coloured
deriving DecidableEq, Repr

namespace Palette

/-- A text in which a tone starts again wherever the text itself ends all tones. -/
def resume (start : Text) : Text → Text
  | '\x1b' :: '[' :: '0' :: 'm' :: rest => '\x1b' :: '[' :: '0' :: 'm' :: (start ++ resume start rest)
  | c :: rest => c :: resume start rest
  | [] => []

/-- A text in a tone. -/
def paint (palette : Palette) (tone : Tone) (text : String) : String :=
  match palette with
  | .plain => text
  | .coloured =>
    let start := "\x1b[" ++ tone.code ++ "m"
    start ++ String.ofList (resume start.toList text.toList) ++ "\x1b[0m"

end Palette

end Outline
