import Outline.Extent.Block
import Outline.Word

namespace Outline.BlockRules

variable (rules : BlockRules)

/-- The guess for a body without an end, if its sum is a word. -/
def fallback? (start last headerEnd : Nat) (outcome : Outcome) : Except Breakdown Extent :=
  (sumWord? start rules.limits.fallbackSpan).bind fun guess =>
    .ok ⟨headerEnd, max (min guess last) headerEnd, outcome⟩

/-- Whether a ceiling forbids to look at line `index`; the sum saturates. -/
def exceedsSaturating (start index iterations : Nat) : Bool :=
  saturatingSum start rules.limits.maxBlockSpan < index || rules.limits.maxIterations < iterations

/-- Counts pairs from line `index` on until they balance, with checked sums. -/
def countToClose? (opener closer : Char) (start headerEnd last : Nat) :
    (index iterations : Nat) → LexState → (depth : Int) → List Text → Except Breakdown Extent
  | _, _, _, _, [] => rules.fallback? start last headerEnd .unterminated
  | index, iterations, state, depth, line :: rest =>
    if rules.exceedsSaturating start index iterations then rules.fallback? start last headerEnd .ceilingHit
    else
      (rules.lexicon.readLine? state line).bind fun reading =>
        let count := reading.codeText.foldl (PairCount.step opener closer) ⟨depth, false⟩
        (sumWord? iterations reading.examined).bind fun examined =>
          if count.closed then .ok ⟨headerEnd, index, .matched⟩
          else
            (sumWord? index 1).bind fun next =>
              countToClose? opener closer start headerEnd last next examined reading.state count.depth rest

/-- Looks for the opening from line `index` on, with checked sums. -/
def findOpener? (opener closer : Char) (start last : Nat) :
    (index iterations : Nat) → LexState → (parens : Int) → List Text → Except Breakdown Extent
  | _, _, _, _, [] => .ok (.single start)
  | index, iterations, state, parens, line :: rest =>
    (rules.lexicon.readLine? state line).bind fun reading =>
      let scan := reading.codeText.foldl (HeadScan.step opener closer rules.terminator) ⟨parens, 0, false, false⟩
      (sumWord? iterations reading.examined).bind fun examined =>
        if scan.terminated then .ok ⟨index, index, .terminated⟩
        else if scan.opened then
          if scan.depth ≤ 0 then .ok ⟨index, index, if index = start then .singleLine else .matched⟩
          else
            (sumWord? index 1).bind fun next =>
              rules.countToClose? opener closer start index last next examined reading.state scan.depth rest
        else if min (saturatingSum start rules.limits.openerLookahead) last ≤ index then .ok (.single start)
        else
          (sumWord? index 1).bind fun next =>
            if !headContinues opener reading.state scan.parens line rest then .ok (.single start)
            else findOpener? opener closer start last next examined reading.state scan.parens rest

/-- Finds the last line of the head, with checked sums. -/
def indentHead? (start last : Nat) :
    (index iterations : Nat) → LexState → (brackets : Int) → List Text →
      Except Breakdown (Nat × Nat × List Text)
  | index, iterations, _, _, [] => .ok (index, iterations, [])
  | index, iterations, state, brackets, line :: rest =>
    (rules.lexicon.readLine? state line).bind fun reading =>
      let brackets := reading.codeText.foldl bracketStep brackets
      (sumWord? iterations reading.examined).bind fun examined =>
        if (brackets ≤ 0 && reading.state.inCode) || last ≤ index ||
            rules.limits.openerLookahead ≤ index - start then .ok (index, examined, rest)
        else
          (sumWord? index 1).bind fun next =>
            indentHead? start last next examined reading.state brackets rest

/-- Follows an indented body from line `index` on, with checked sums. -/
def indentBody? (start headerEnd last base : Nat) :
    (index iterations reached : Nat) → LexState → List Text → Except Breakdown Extent
  | _, _, reached, _, [] => .ok (closeIndent start headerEnd reached)
  | index, iterations, reached, state, line :: rest =>
    if rules.exceedsSaturating start index iterations then rules.fallback? start last headerEnd .ceilingHit
    else
      (rules.lexicon.readLine? state line).bind fun reading =>
        (sumWord? iterations reading.examined).bind fun examined =>
          if state.inCode && !rules.isIdle line && indentWidth line ≤ base then
            .ok (closeIndent start headerEnd reached)
          else
            (sumWord? index 1).bind fun next =>
              indentBody? start headerEnd last base next examined
                (if state.inCode && rules.isIdle line then reached else index) reading.state rest

/-- Follows the words from line `index` on until every block is closed, with checked sums. -/
def keywordBody? (start last : Nat) :
    (index iterations : Nat) → LexState → (depth brackets : Nat) → (previous : Text) → List Text →
      Except Breakdown Extent
  | _, _, _, _, _, _, [] => rules.fallback? start last start .unterminated
  | index, iterations, state, depth, brackets, previous, line :: rest =>
    if rules.exceedsSaturating start index iterations then rules.fallback? start last start .ceilingHit
    else
      (rules.lexicon.readLine? state line).bind fun reading =>
        let scan := WordScan.readLine depth brackets previous reading.codeText
        (sumWord? iterations (max (Text.byteSize reading.codeText) 1)).bind fun examined =>
          if scan.depth = 0 then .ok (if index = start then .single start else ⟨start, index, .matched⟩)
          else
            (sumWord? index 1).bind fun next =>
              keywordBody? start last next examined reading.state scan.depth scan.brackets scan.previous rest

/-- Follows the statement from line `index` on, with checked sums. -/
def statementBody? (start last : Nat) :
    (index iterations : Nat) → LexState → (balance : Int) → List Text → Except Breakdown Extent
  | _, _, _, _, [] => rules.fallback? start last start .unterminated
  | index, iterations, state, balance, line :: rest =>
    if rules.exceedsSaturating start index iterations then rules.fallback? start last start .ceilingHit
    else
      (rules.lexicon.readLine? state line).bind fun reading =>
        let scan := reading.codeText.foldl StatementScan.step ⟨balance, false⟩
        let lineEnds := rules.terminator == .newline && scan.balance ≤ 0 && reading.state.inCode &&
          !continuesExpression line
        (sumWord? iterations reading.examined).bind fun examined =>
          if scan.terminated || lineEnds then
            .ok ⟨start, index, if index = start then .singleLine else .terminated⟩
          else
            (sumWord? index 1).bind fun next =>
              statementBody? start last next examined reading.state scan.balance rest

/-- The extent of a body whose opening stands on the first line, with checked sums. -/
def pairExtent? (opener closer : Char) (start : Nat) : List Text → Except Breakdown Extent
  | [] => .ok (.single start)
  | line :: rest =>
    (rules.lexicon.readLine? .code line).bind fun reading =>
      let net := netCount opener closer reading.codeText
      if !net.2 || net.1 ≤ 0 then .ok (.single start)
      else
        (sumWord? start 1).bind fun next =>
          rules.countToClose? opener closer start start (start + rest.length) next reading.examined reading.state
            net.1 rest

/-- The extent of a declaration with an indented body, with checked sums. -/
def indentExtent? (start : Nat) (window : List Text) : Except Breakdown Extent :=
  let last := start + window.length - 1
  let base := indentWidth (window.headD [])
  (rules.indentHead? start last start 0 .code 0 window).bind fun head =>
    (sumWord? head.1 1).bind fun next =>
      rules.indentBody? start head.1 last base next head.2.1 head.1 .code head.2.2

/-- The extent of a declaration with a body, with checked sums. -/
def blockExtent? (start : Nat) (window : List Text) : Except Breakdown Extent :=
  if window.isEmpty then .ok (.single start)
  else
    match rules.style with
    | .braces opener closer =>
      rules.findOpener? opener closer start (start + window.length - 1) start 0 .code 0 window
    | .indent => rules.indentExtent? start window
    | .keyword => rules.keywordBody? start (start + window.length - 1) start 0 .code 0 0 [] window

/-- The extent of a body that opens on the first line, with checked sums. -/
def openBlockExtent? (start : Nat) (window : List Text) : Except Breakdown Extent :=
  match rules.style with
  | .braces opener closer => rules.pairExtent? opener closer start window
  | _ => rules.blockExtent? start window

/-- The extent of a statement, with checked sums. -/
def statementExtent? (start : Nat) (window : List Text) : Except Breakdown Extent :=
  if window.isEmpty then .ok (.single start)
  else rules.statementBody? start (start + window.length - 1) start 0 .code 0 window

end Outline.BlockRules
