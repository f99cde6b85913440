import Outline.Extent.Basic

namespace Outline

/-- Adds the white space that opens a line to a width; a tab goes on to the next multiple of eight. -/
def indentFrom (width : Nat) : Text → Nat
  | ' ' :: rest => indentFrom (width + 1) rest
  | '\t' :: rest => indentFrom ((width / 8 + 1) * 8) rest
  | _ => width

/-- The width of the spaces and tabs that open a line. -/
def indentWidth (line : Text) : Nat :=
  indentFrom 0 line

namespace BlockRules

/-- Finds the last line of the head: the line, the characters examined so far, and the lines after it. -/
def indentHead (rules : BlockRules) (start last : Nat) :
    (index iterations : Nat) → LexState → (brackets : Int) → List Text → Nat × Nat × List Text
  | index, iterations, _, _, [] => (index, iterations, [])
  | index, iterations, state, brackets, line :: rest =>
    let reading := rules.lexicon.readLine state line
    let brackets := reading.codeText.foldl bracketStep brackets
    let iterations := iterations + reading.examined
    if (brackets ≤ 0 && reading.state.inCode) || last ≤ index ||
        rules.limits.openerLookahead ≤ index - start then (index, iterations, rest)
    else indentHead rules start last (index + 1) iterations reading.state brackets rest

/-- Whether a line that begins in code is blank or opens with a comment, and so decides nothing. -/
def isIdle (rules : BlockRules) (line : Text) : Bool :=
  let trimmed := Text.trimStart line
  trimmed.isEmpty || rules.lexicon.lineComments.any fun mark => Text.startsWith mark trimmed

/-- The extent of a head and body of which the last line that counts so far is `reached`. -/
def closeIndent (start headerEnd reached : Nat) : Extent :=
  ⟨headerEnd, reached, if reached = start then .singleLine else .matched⟩

/-- Follows the body from line `index` on. -/
def indentBody (rules : BlockRules) (start headerEnd last base : Nat) :
    (index iterations reached : Nat) → LexState → List Text → Extent
  | _, _, reached, _, [] => closeIndent start headerEnd reached
  | index, iterations, reached, state, line :: rest =>
    if rules.exceeds start index iterations then rules.fallback start last headerEnd .ceilingHit
    else
      let reading := rules.lexicon.readLine state line
      let iterations := iterations + reading.examined
      if !state.inCode then
        indentBody rules start headerEnd last base (index + 1) iterations index reading.state rest
      else if rules.isIdle line then
        indentBody rules start headerEnd last base (index + 1) iterations reached reading.state rest
      else if indentWidth line ≤ base then closeIndent start headerEnd reached
      else indentBody rules start headerEnd last base (index + 1) iterations index reading.state rest

/-- The extent of a declaration with an indented body. -/
def indentExtent (rules : BlockRules) (start : Nat) (window : List Text) : Extent :=
  let last := start + window.length - 1
  let base := indentWidth (window.headD [])
  match rules.indentHead start last start 0 .code 0 window with
  | (headerEnd, iterations, rest) =>
    rules.indentBody start headerEnd last base (headerEnd + 1) iterations headerEnd .code rest

end BlockRules

end Outline
