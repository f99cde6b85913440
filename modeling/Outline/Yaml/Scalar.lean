import Outline.Yaml.Spot

namespace Outline.Yaml

/-- How a scalar is written. -/
inductive Style where
  | plain
  | quoted
  | literal
  | folded
deriving DecidableEq, Repr

/-- White space and line breaks between two parts of a scalar. -/
structure Gap where
  /-- White space before the first line break. -/
  spaces : Text := []
  /-- The first line break. -/
  first : Text := []
  /-- Later line breaks. -/
  later : Text := []
  /-- Whether a line has ended. -/
  broken : Bool := false

/-- What the gap leaves in the scalar. -/
def Gap.fold (gap : Gap) : Text :=
  if !gap.broken then gap.spaces
  else if gap.first != ['\n'] then gap.first ++ gap.later
  else if gap.later.isEmpty then [' ']
  else gap.later

/-- The gap with a line break after it. -/
def Gap.addBreak (gap : Gap) (text : Text) : Gap :=
  if gap.broken then { gap with later := gap.later ++ text } else { first := text, broken := true }

/-- The gap with white space after it, which counts only on the first line. -/
def Gap.addSpace (gap : Gap) (c : Char) : Gap :=
  if gap.broken then gap else { gap with spaces := gap.spaces ++ [c] }

/-- Continues a gap. A tab that stands left of the column `least` on a later line is a fault. -/
def readGap (least : Nat) : (fuel : Nat) → Gap → Spot → Option (Gap × Spot)
  | 0, gap, spot => some (gap, spot)
  | fuel + 1, gap, spot =>
    match spot.break? with
    | some (text, next) => readGap least fuel (gap.addBreak text) next
    | none =>
      match spot.rest with
      | [] => some (gap, spot)
      | c :: _ =>
        if !isSpace c then some (gap, spot)
        else if gap.broken && c == '\t' && spot.column < least then none
        else readGap least fuel (gap.addSpace c) (spot.skip 1)

/-- Characters that structure flow collections. -/
def isFlowMark (c : Char) : Bool :=
  c == ',' || c == '[' || c == ']' || c == '\x7b' || c == '\x7d'

/-- The characters of a plain scalar up to white space or to what ends it: a colon before a gap, or
in a flow collection one of its marks. -/
def plainRun? (flow : Bool) : Text → Option Text
  | [] => some []
  | c :: rest =>
    if isSpace c || isBreak c then some []
    else if flow && c == ':' && Text.startsWhere (fun d => isFlowMark d || d == '?') rest then none
    else if (c == ':' && atGap rest) || (flow && isFlowMark c) then some []
    else (plainRun? flow rest).map (c :: ·)

/-- Continues a plain scalar after a gap. Outside flow collections its lines stand at the column
`least` or further right. The result tells whether the scalar was left at the start of a line. -/
def plainFrom (flow : Bool) (least : Nat) :
    (fuel : Nat) → (text : Text) → Gap → Spot → Option (Text × Bool × Spot)
  | 0, _, _, _ => none
  | fuel + 1, text, gap, spot => do
    if spot.atMark || Text.startsWhere (· == '#') spot.rest then return (text, gap.broken, spot)
    let run ← plainRun? flow spot.rest
    if run.isEmpty then return (text, gap.broken, spot)
    let text := text ++ gap.fold ++ run
    let stop := spot.skip run.length
    let (gap, next) ← readGap least stop.rest.length {} stop
    if !flow && gap.broken && next.column < least then return (text, true, next)
    plainFrom flow least fuel text gap next

/-- Reads a plain scalar. -/
def plain? (flow : Bool) (least : Nat) (spot : Spot) : Option (Text × Bool × Spot) :=
  plainFrom flow least (spot.rest.length + 1) [] {} spot

/-- The number that stands at a spot in `size` hexadecimal digits, and the spot after it. -/
def hexNumber? (size : Nat) (spot : Spot) : Option (Nat × Spot) := do
  guard (size ≤ spot.rest.length)
  let n ← (spot.rest.take size).foldlM (fun n c => (hexValue? c).map (16 * n + ·)) 0
  return (n, spot.skip size)

/-- The character that an escape of one letter stands for. -/
def escaped? : Char → Option Char
  | '0' => some '\x00'
  | 'a' => some '\x07'
  | 'b' => some '\x08'
  | 't' | '\t' => some '\t'
  | 'n' => some '\n'
  | 'v' => some '\x0b'
  | 'f' => some '\x0c'
  | 'r' => some '\r'
  | 'e' => some '\x1b'
  | ' ' => some ' '
  | '"' => some '"'
  | '/' => some '/'
  | '\\' => some '\\'
  | 'N' => some '\u0085'
  | '_' => some '\u00a0'
  | 'L' => some '\u2028'
  | 'P' => some '\u2029'
  | _ => none

/-- How many hexadecimal digits an escape letter announces. -/
def hexLength? : Char → Option Nat
  | 'x' => some 2
  | 'u' => some 4
  | 'U' => some 8
  | _ => none

/-- The character that stands at a spot after a backslash, and the spot after it. -/
def escape? (spot : Spot) : Option (Char × Spot) := do
  let letter ← spot.rest.head?
  match hexLength? letter with
  | none => return (← escaped? letter, spot.skip 1)
  | some size =>
    let (code, next) ← hexNumber? size (spot.skip 1)
    guard code.isValidChar
    return (Char.ofNat code, next)

/-- The characters of a quoted scalar up to a gap or its closing quote. The result tells whether
they end with an escaped line break. -/
def quotedRun? (quote : Char) : (fuel : Nat) → (text : Text) → Spot → Option (Text × Bool × Spot)
  | 0, text, spot => some (text, false, spot)
  | fuel + 1, text, spot =>
    match spot.rest with
    | [] => some (text, false, spot)
    | c :: rest =>
      if isSpace c || isBreak c then some (text, false, spot)
      else if c == quote then
        if quote == '\'' && Text.startsWhere (· == quote) rest then
          quotedRun? quote fuel (text ++ [quote]) (spot.skip 2)
        else some (text, false, spot)
      else if quote == '"' && c == '\\' then
        match (spot.skip 1).break? with
        | some (_, next) => some (text, true, next)
        | none => do
          let (decoded, next) ← escape? (spot.skip 1)
          quotedRun? quote fuel (text ++ [decoded]) next
      else quotedRun? quote fuel (text ++ [c]) (spot.skip 1)

/-- Continues a quoted scalar. It ends at its closing quote, and neither a mark between documents
nor the end of the text may come before. -/
def quotedFrom (quote : Char) : (fuel : Nat) → (text : Text) → Spot → Option (Text × Spot)
  | 0, _, _ => none
  | fuel + 1, text, spot => do
    if spot.atMark || spot.rest.isEmpty then failure
    let (text, broken, stop) ← quotedRun? quote spot.rest.length text spot
    if Text.startsWhere (· == quote) stop.rest then return (text, stop.skip 1)
    let (gap, next) ← readGap 0 stop.rest.length { broken } stop
    quotedFrom quote fuel (text ++ gap.fold) next

/-- Reads a quoted scalar after its opening quote. -/
def quoted? (quote : Char) (spot : Spot) : Option (Text × Spot) :=
  quotedFrom quote (spot.rest.length + 1) [] spot

/-- What becomes of the line breaks at the end of a block scalar. -/
inductive Chomp where
  /-- All are dropped. -/
  | strip
  /-- The first is kept. -/
  | clip
  /-- All are kept. -/
  | keep
deriving DecidableEq, Repr

/-- The sign at a spot that tells what becomes of the last line breaks, and the spot after it. -/
def chompSign (spot : Spot) : Option Chomp × Spot :=
  if Text.startsWhere (· == '+') spot.rest then (some .keep, spot.skip 1)
  else if Text.startsWhere (· == '-') spot.rest then (some .strip, spot.skip 1)
  else (none, spot)

/-- The digit at a spot that tells how deep a block scalar is indented, and the spot after it. A
zero is a fault. -/
def indentDigit? (spot : Spot) : Option (Option Nat × Spot) :=
  match spot.rest with
  | c :: _ =>
    if c == '0' then none
    else if isAsciiDigit c then some (some (c.toNat - 48), spot.skip 1)
    else some (none, spot)
  | [] => some (none, spot)

/-- The sign and the digit of a block scalar, in either order, and the start of its first line. -/
def blockHeader? (spot : Spot) : Option (Chomp × Option Nat × Spot) := do
  let (sign, spot) := chompSign spot
  let (depth, spot) ← indentDigit? spot
  let (lateSign, spot) := if sign.isNone && depth.isSome then chompSign spot else (none, spot)
  return ((sign <|> lateSign).getD .clip, depth, ← spot.nextLine?)

/-- Passes over blank lines of a block scalar and the indentation of the line after them. `depth` is
the indentation if it is known, and the result has the widest indentation met. A tab inside the
indentation is a fault. -/
def blockBreaks? (depth : Option Nat) :
    (fuel widest : Nat) → (breaks : Text) → Spot → Option (Text × Nat × Spot)
  | 0, widest, breaks, spot => some (breaks, widest, spot)
  | fuel + 1, widest, breaks, spot =>
    let blanks := (spot.rest.takeWhile (· == ' ')).length
    let spot := spot.skip ((depth.map fun n => min blanks (n - spot.column)).getD blanks)
    let widest := max widest spot.column
    if depth.all (spot.column < ·) && Text.startsWhere (· == '\t') spot.rest then none
    else
      match spot.break? with
      | some (text, next) => blockBreaks? depth fuel widest (breaks ++ text) next
      | none => some (breaks, widest, spot)

/-- The lines of a block scalar that are indented by `depth`. `first` and `later` are the line
breaks since the last line, and `blank` tells that it started with white space; such lines are not
folded. -/
def blockLines? (folds : Bool) (depth : Nat) :
    (fuel : Nat) → (text first later : Text) → (blank : Bool) → Spot → Option (Text × Text × Text × Spot)
  | 0, _, _, _, _, _ => none
  | fuel + 1, text, first, later, blank, spot => do
    if spot.column != depth || spot.rest.isEmpty then return (text, first, later, spot)
    let startsBlank := Text.startsWhere isSpace spot.rest
    let joint :=
      if folds && first == ['\n'] && !blank && !startsBlank then if later.isEmpty then [' '] else []
      else first
    let (line, stop) := spot.span fun c => !isBreak c
    let (first, next) := stop.break?.getD ([], stop)
    let (breaks, _, next) ← blockBreaks? (some depth) (next.rest.length + 1) 0 [] next
    blockLines? folds depth fuel (text ++ joint ++ later ++ line) first breaks startsBlank next

/-- Reads a block scalar after its mark. Its lines stand at the column `least` or further right. -/
def block? (folds : Bool) (least : Nat) (spot : Spot) : Option (Text × Spot) := do
  let (chomp, digit, spot) ← blockHeader? spot
  let given := digit.map fun n => if least = 0 then n else least - 1 + n
  let (breaks, widest, spot) ← blockBreaks? given (spot.rest.length + 1) 0 [] spot
  let depth := given.getD (max widest (max least 1))
  let (text, first, later, spot) ← blockLines? folds depth (spot.rest.length + 1) [] [] breaks false spot
  let ending :=
    match chomp with
    | .strip => []
    | .clip => first
    | .keep => first ++ later
  return (text ++ ending, spot)

end Outline.Yaml
