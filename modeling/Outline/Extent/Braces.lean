import Outline.Extent.Basic

namespace Outline

/-- The count of open pairs, and whether it has come back to zero. -/
structure PairCount where
  depth : Int
  closed : Bool

/-- The count after one more character; once closed it does not change. -/
def PairCount.step (opener closer : Char) (count : PairCount) (c : Char) : PairCount :=
  if count.closed then count
  else if c = opener then ⟨count.depth + 1, false⟩
  else if c = closer then ⟨count.depth - 1, count.depth - 1 == 0⟩
  else count

/-- What the search for the opening has met. -/
structure HeadScan where
  /-- Round and square brackets that are open. -/
  parens : Int
  /-- Open pairs since the opening. -/
  depth : Int
  opened : Bool
  terminated : Bool

/-- The scan after one more character. The opening and a semicolon count outside brackets only, and
whichever comes first decides. -/
def HeadScan.step (opener closer : Char) (terminator : Terminator) (scan : HeadScan) (c : Char) :
    HeadScan :=
  if scan.terminated then scan
  else if scan.opened then
    if c = opener then ⟨scan.parens, scan.depth + 1, true, false⟩
    else if c = closer then ⟨scan.parens, scan.depth - 1, true, false⟩
    else scan
  else if c = '(' || c = '[' then ⟨scan.parens + 1, scan.depth, false, false⟩
  else if c = ')' || c = ']' then ⟨scan.parens - 1, scan.depth, false, false⟩
  else if c = ';' && scan.parens ≤ 0 && terminator == .semicolon then
    ⟨scan.parens, scan.depth, false, true⟩
  else if c = opener && scan.parens ≤ 0 then ⟨scan.parens, 1, true, false⟩
  else scan

/-- Words and marks at the start of a line that carry on the head of a declaration. -/
def continuations : List Text :=
  ["where".toList, "throws".toList, "extends".toList, "implements".toList, "->".toList, ":".toList,
    ",".toList]

/-- Whether a line begins with one of the continuations; a word must end there. -/
def startsContinuation (line : Text) : Bool :=
  continuations.any fun mark =>
    match Text.strip? mark line with
    | some tail => !mark.all isNameChar || !Text.startsWhere isNameChar tail
    | none => false

/-- Whether the head goes on after a line that left the reader in `state` with `parens` open. -/
def headContinues (opener : Char) (state : LexState) (parens : Int) (line : Text)
    (following : List Text) : Bool :=
  if !state.inCode || parens > 0 then true
  else
    let current := Text.trim line
    if Text.endsWith [','] current || Text.endsWith ['-', '>'] current || Text.endsWith [':'] current ||
        current == "where".toList then true
    else
      match following with
      | [] => false
      | next :: _ =>
        let next := Text.trimStart next
        Text.startsWith [opener] next || startsContinuation next

namespace BlockRules

/-- Counts pairs from line `index` on until they balance. -/
def countToClose (rules : BlockRules) (opener closer : Char) (start headerEnd last : Nat) :
    (index iterations : Nat) → LexState → (depth : Int) → List Text → Extent
  | _, _, _, _, [] => rules.fallback start last headerEnd .unterminated
  | index, iterations, state, depth, line :: rest =>
    if rules.exceeds start index iterations then rules.fallback start last headerEnd .ceilingHit
    else
      let reading := rules.lexicon.readLine state line
      let count := reading.codeText.foldl (PairCount.step opener closer) ⟨depth, false⟩
      if count.closed then ⟨headerEnd, index, .matched⟩
      else
        countToClose rules opener closer start headerEnd last (index + 1)
          (iterations + reading.examined) reading.state count.depth rest

/-- Looks for the opening from line `index` on. -/
def findOpener (rules : BlockRules) (opener closer : Char) (start last : Nat) :
    (index iterations : Nat) → LexState → (parens : Int) → List Text → Extent
  | _, _, _, _, [] => .single start
  | index, iterations, state, parens, line :: rest =>
    let reading := rules.lexicon.readLine state line
    let scan := reading.codeText.foldl (HeadScan.step opener closer rules.terminator)
      ⟨parens, 0, false, false⟩
    if scan.terminated then ⟨index, index, .terminated⟩
    else if scan.opened then
      if scan.depth ≤ 0 then ⟨index, index, if index = start then .singleLine else .matched⟩
      else
        rules.countToClose opener closer start index last (index + 1) (iterations + reading.examined)
          reading.state scan.depth rest
    else if min (start + rules.limits.openerLookahead) last ≤ index ||
        !headContinues opener reading.state scan.parens line rest then .single start
    else
      findOpener rules opener closer start last (index + 1) (iterations + reading.examined)
        reading.state scan.parens rest

/-- The extent of a declaration with a body between a pair of characters. -/
def braceExtent (rules : BlockRules) (opener closer : Char) (start : Nat) (window : List Text) :
    Extent :=
  rules.findOpener opener closer start (start + window.length - 1) start 0 .code 0 window

/-- The net count of pairs on a line, and whether any opens. -/
def netCount (opener closer : Char) (code : Text) : Int × Bool :=
  code.foldl (fun count c =>
    if c = opener then (count.1 + 1, true) else if c = closer then (count.1 - 1, count.2) else count)
    (0, false)

/-- The extent of a body whose opening stands on the first line, counting from that line's net. -/
def pairExtent (rules : BlockRules) (opener closer : Char) (start : Nat) : List Text → Extent
  | [] => .single start
  | line :: rest =>
    let reading := rules.lexicon.readLine .code line
    let net := netCount opener closer reading.codeText
    if !net.2 || net.1 ≤ 0 then .single start
    else
      rules.countToClose opener closer start start (start + rest.length) (start + 1) reading.examined
        reading.state net.1 rest

end BlockRules

end Outline
