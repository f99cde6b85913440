import Outline.Extent.Basic

namespace Outline

/-- Operators at the end of a line that carry an expression on to the next. -/
def trailingOperators : List Text :=
  [['\\'], ['='], ['=', '>'], ['&', '&'], ['|', '|'], ['<', '-'], ['|', '>']]

/-- Whether the expression on a line goes on. -/
def continuesExpression (line : Text) : Bool :=
  trailingOperators.any fun operator => Text.endsWith operator (Text.trimEnd line)

/-- The balance of brackets, and whether a semicolon has ended the statement. -/
structure StatementScan where
  balance : Int
  terminated : Bool

/-- The scan after one more character; once ended it does not change. -/
def StatementScan.step (scan : StatementScan) (c : Char) : StatementScan :=
  if scan.terminated then scan
  else if c = ';' && scan.balance ≤ 0 then ⟨scan.balance, true⟩
  else ⟨bracketStep scan.balance c, false⟩

namespace BlockRules

/-- Follows the statement from line `index` on. -/
def statementBody (rules : BlockRules) (start last : Nat) :
    (index iterations : Nat) → LexState → (balance : Int) → List Text → Extent
  | _, _, _, _, [] => rules.fallback start last start .unterminated
  | index, iterations, state, balance, line :: rest =>
    if rules.exceeds start index iterations then rules.fallback start last start .ceilingHit
    else
      let reading := rules.lexicon.readLine state line
      let scan := reading.codeText.foldl StatementScan.step ⟨balance, false⟩
      let lineEnds := rules.terminator == .newline && scan.balance ≤ 0 && reading.state.inCode &&
        !continuesExpression line
      if scan.terminated || lineEnds then
        ⟨start, index, if index = start then .singleLine else .terminated⟩
      else
        statementBody rules start last (index + 1) (iterations + reading.examined) reading.state
          scan.balance rest

/-- The extent of a statement. -/
def statementExtent (rules : BlockRules) (start : Nat) (window : List Text) : Extent :=
  if window.isEmpty then .single start
  else rules.statementBody start (start + window.length - 1) start 0 .code 0 window

end BlockRules

end Outline
