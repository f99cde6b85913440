import Outline.Yaml.Token

namespace Outline.Yaml

/-- What may turn out to be a key once a colon follows. -/
structure Candidate where
  /-- Whether the indentation admits nothing but a key. -/
  required : Bool
  /-- The number of tokens before it. -/
  position : Nat
  index : Nat
  line : Nat
  column : Nat
deriving Repr

/-- Whether a key can no longer end at a spot: keys stay on one line and are not long. -/
def Candidate.isStale (candidate : Candidate) (spot : Spot) : Bool :=
  candidate.line < spot.line || candidate.index + 1024 < spot.index

/-- How far a document has been split into tokens. -/
structure Layout where
  spot : Spot
  /-- The tokens so far, the newest first. -/
  tokens : List Token := []
  /-- The columns of the open block collections, the innermost first. -/
  indents : List Nat := []
  /-- The candidate for a key in the innermost flow collection. -/
  candidate : Option Candidate := none
  /-- The candidates outside it, one for each flow collection around. -/
  outer : List (Option Candidate) := []
  /-- Whether a key may start here. -/
  keyAllowed : Bool := true

namespace Layout

/-- Whether a flow collection is open. -/
def inFlow (layout : Layout) : Bool :=
  !layout.outer.isEmpty

/-- The least column of what belongs to the innermost block collection. -/
def least (layout : Layout) : Nat :=
  (layout.indents.head?.map (· + 1)).getD 0

/-- Adds a token and moves on. -/
def emit (layout : Layout) (token : Token) (spot : Spot) (keyAllowed : Bool) : Layout :=
  { layout with tokens := token :: layout.tokens, spot, keyAllowed }

/-- Gives up the candidate; one that is required is a fault. -/
def forgetKey? (layout : Layout) : Option Layout :=
  if layout.candidate.any Candidate.required then none else some { layout with candidate := none }

/-- Makes what starts here the candidate, where a key may start. -/
def saveKey? (layout : Layout) : Option Layout :=
  if layout.keyAllowed then do
    let layout ← layout.forgetKey?
    let spot := layout.spot
    let required := !layout.inFlow && layout.indents.head? == some spot.column
    return { layout with
      candidate := some ⟨required, layout.tokens.length, spot.index, spot.line, spot.column⟩ }
  else some layout

/-- A candidate that can still become a key; a required one that cannot is a fault. -/
def fresh? (spot : Spot) : Option Candidate → Option (Option Candidate)
  | none => some none
  | some candidate =>
    if !candidate.isStale spot then some (some candidate)
    else if candidate.required then none
    else some none

/-- Gives up the candidates that can no longer become keys. -/
def dropStale? (layout : Layout) : Option Layout := do
  let candidate ← fresh? layout.spot layout.candidate
  let outer ← layout.outer.mapM (fresh? layout.spot)
  return { layout with candidate, outer }

/-- Opens a block collection at a column, if it is further right than those open, with a token that
has `position` tokens before it. -/
def indent (layout : Layout) (column position : Nat) (token : Token) : Layout :=
  if !layout.inFlow && layout.indents.head?.all (· < column) then
    let newer := layout.tokens.length - position
    { layout with
      tokens := layout.tokens.take newer ++ token :: layout.tokens.drop newer
      indents := column :: layout.indents }
  else layout

/-- Opens a block collection here. -/
def indentHere (layout : Layout) (token : Token) : Layout :=
  layout.indent layout.spot.column layout.tokens.length token

/-- Closes the block collections that satisfy a condition on their columns, from the inside out. -/
def dedentWhile (layout : Layout) (p : Nat → Bool) : Layout :=
  if layout.inFlow then layout
  else
    { layout with
      tokens := List.replicate (layout.indents.takeWhile p).length .blockEnd ++ layout.tokens
      indents := layout.indents.dropWhile p }

/-- Closes all block collections. -/
def dedentAll (layout : Layout) : Layout :=
  layout.dedentWhile fun _ => true

/-- Passes over white space, comments and line breaks. Tabs are no white space where a key may
start, except in flow collections; a line break in a block lets a key start. -/
def toNextToken : (fuel : Nat) → Layout → Layout
  | 0, layout => layout
  | fuel + 1, layout =>
    let spot := layout.spot
    let spot :=
      if spot.column == 0 && Text.startsWhere (· == '\uFEFF') spot.rest then spot.skip 1 else spot
    let tabs := layout.inFlow || !layout.keyAllowed
    let spot := (spot.span fun c => c == ' ' || (tabs && c == '\t')).2.skipComment
    match spot.break? with
    | some (_, next) =>
      toNextToken fuel { layout with spot := next, keyAllowed := layout.keyAllowed || !layout.inFlow }
    | none => { layout with spot }

/-- Reads a colon. After a candidate it makes a key of it; elsewhere it follows a key that was
marked, or none. -/
def colon? (layout : Layout) : Option Layout :=
  let next := layout.spot.skip 1
  match layout.candidate with
  | some candidate =>
    let newer := layout.tokens.length - candidate.position
    let keyed := { layout with
      tokens := layout.tokens.take newer ++ Token.key :: layout.tokens.drop newer
      candidate := none }
    some ((keyed.indent candidate.column candidate.position .mappingStart).emit .value next false)
  | none =>
    if layout.inFlow then some (layout.emit .value next false)
    else if layout.keyAllowed then some ((layout.indentHere .mappingStart).emit .value next true)
    else none

/-- Opens a flow collection, which may itself be a key. -/
def openFlow? (layout : Layout) (token : Token) : Option Layout := do
  let layout ← layout.saveKey?
  let inside := { layout with candidate := none, outer := layout.candidate :: layout.outer }
  return inside.emit token (layout.spot.skip 1) true

/-- Closes the innermost flow collection. -/
def closeFlow? (layout : Layout) (token : Token) : Option Layout := do
  let layout ← layout.forgetKey?
  let outside :=
    match layout.outer with
    | [] => layout
    | candidate :: outer => { layout with candidate, outer }
  return outside.emit token (layout.spot.skip 1) false

/-- Reads the mark of a block collection, which stands only where a key may. -/
def blockMark? (layout : Layout) (opening mark : Token) : Option Layout := do
  guard (layout.inFlow || layout.keyAllowed)
  let layout ← (layout.indentHere opening).forgetKey?
  return layout.emit mark (layout.spot.skip 1) (mark == .entry || !layout.inFlow)

/-- Reads a token that is a mark between documents or a directive. -/
def documentToken? (layout : Layout) (read : Spot → Option (Token × Spot)) : Option Layout := do
  let layout ← layout.dedentAll.forgetKey?
  let (token, next) ← read layout.spot
  return layout.emit token next false

/-- Reads a token that can be a key or a part of one. -/
def keyToken? (layout : Layout) (read : Spot → Option (Token × Spot)) : Option Layout := do
  let layout ← layout.saveKey?
  let (token, next) ← read layout.spot
  return layout.emit token next false

/-- Reads a block scalar. -/
def blockScalar? (layout : Layout) (style : Style) : Option Layout := do
  let layout ← layout.forgetKey?
  let (text, next) ← block? (style == .folded) layout.least (layout.spot.skip 1)
  return layout.emit (.scalar style text) next true

/-- Reads a plain scalar. If it was left at the start of a line, a key may start there. -/
def plainScalar? (layout : Layout) : Option Layout := do
  let layout ← layout.saveKey?
  let (text, broken, next) ← plain? layout.inFlow layout.least layout.spot
  return layout.emit (.scalar .plain text) next broken

/-- A token with the name that follows its mark, and the spot after it. -/
def named? (token : Text → Token) (spot : Spot) : Option (Token × Spot) :=
  (label? (spot.skip 1)).map fun found => (token found.1, found.2)

/-- A scalar between quotes, and the spot after it. -/
def quotedScalar? (quote : Char) (spot : Spot) : Option (Token × Spot) :=
  (quoted? quote (spot.skip 1)).map fun found => (.scalar .quoted found.1, found.2)

/-- Characters that cannot start a plain scalar. -/
def isReserved (c : Char) : Bool :=
  isSpace c || isBreak c || isFlowMark c || "#&*!|>'\"%@\x60".toList.elem c

/-- Reads the token that starts with a character. -/
def token? (layout : Layout) (c : Char) (rest : Text) : Option Layout :=
  if layout.spot.column == 0 && c == '%' then layout.documentToken? fun spot => directive? (spot.skip 1)
  else if layout.spot.atMark then
    let mark := if c == '-' then Token.documentStart else .documentEnd
    layout.documentToken? fun spot => some (mark, spot.skip 3)
  else if c == '[' then layout.openFlow? .openSequence
  else if c == '\x7b' then layout.openFlow? .openMapping
  else if c == ']' then layout.closeFlow? .closeSequence
  else if c == '\x7d' then layout.closeFlow? .closeMapping
  else if c == ',' then layout.forgetKey?.map fun layout => layout.emit .comma (layout.spot.skip 1) true
  else if c == '-' && atGap rest then layout.blockMark? .sequenceStart .entry
  else if c == '?' && (layout.inFlow || atGap rest) then layout.blockMark? .mappingStart .key
  else if c == ':' && (layout.inFlow || atGap rest) then layout.colon?
  else if c == '*' then layout.keyToken? (named? .reference)
  else if c == '&' then layout.keyToken? (named? .anchor)
  else if c == '!' then layout.keyToken? (tag? layout.inFlow)
  else if c == '|' && !layout.inFlow then layout.blockScalar? .literal
  else if c == '>' && !layout.inFlow then layout.blockScalar? .folded
  else if c == '\'' || c == '"' then layout.keyToken? (quotedScalar? c)
  else if isReserved c then none
  else layout.plainScalar?

/-- Reads the tokens that are still to come. -/
def tokensFrom : (fuel : Nat) → Layout → Option (List Token)
  | 0, _ => none
  | fuel + 1, layout => do
    let layout ← (layout.toNextToken (layout.spot.rest.length + 1)).dropStale?
    let layout := layout.dedentWhile (layout.spot.column < ·)
    match layout.spot.rest with
    | [] => return (← layout.dedentAll.forgetKey?).tokens.reverse
    | c :: rest => tokensFrom fuel (← layout.token? c rest)

end Layout

/-- The tokens of a text. -/
def tokens? (t : Text) : Option (List Token) :=
  if t.all isAllowed then Layout.tokensFrom (t.length + 1) { spot := .start t } else none

end Outline.Yaml
