import Outline.Yaml.Scalar

namespace Outline.Yaml

/-- The name of a type, in bytes. -/
abbrev Tag := List UInt8

/-- The smallest parts of a document that have a meaning of their own. -/
inductive Token where
  /-- A directive that names the version of the language. -/
  | version (major minor : Nat)
  /-- A directive that lets a handle stand for the start of a tag. -/
  | handle (name : Text) (start : Tag)
  | documentStart
  | documentEnd
  /-- A block sequence begins. -/
  | sequenceStart
  /-- A block mapping begins. -/
  | mappingStart
  /-- The innermost block collection ends. -/
  | blockEnd
  | openSequence
  | closeSequence
  | openMapping
  | closeMapping
  /-- The dash of a block sequence. -/
  | entry
  | comma
  | key
  | value
  /-- A reference to an anchor. -/
  | reference (name : Text)
  | anchor (name : Text)
  | tag (handle : Text) (suffix : Tag)
  | scalar (style : Style) (text : Text)
deriving DecidableEq, Repr

/-- Characters of names. -/
def isLabelChar (c : Char) : Bool :=
  isAsciiLetter c || isAsciiDigit c || c == '_' || c == '-'

/-- The name of an anchor after its mark, and the spot after it. -/
def label? (spot : Spot) : Option (Text × Spot) :=
  let (name, next) := spot.span isLabelChar
  if !name.isEmpty && (atGap next.rest || Text.startsWhere "?:,]\x7d%@\x60".toList.elem next.rest) then
    some (name, next)
  else none

/-- Characters of a tag, apart from escapes. In a verbatim tag flow marks belong to it. -/
def isTagChar (verbatim : Bool) (c : Char) : Bool :=
  isLabelChar c || ";/?:@&=+$.!~*'()".toList.elem c || (verbatim && (c == ',' || c == '[' || c == ']'))

/-- The number of bytes of a character whose first byte is given. -/
def sequenceLength? (byte : Nat) : Option Nat :=
  if byte < 0x80 then some 1
  else if 0xC0 ≤ byte && byte < 0xE0 then some 2
  else if 0xE0 ≤ byte && byte < 0xF0 then some 3
  else if 0xF0 ≤ byte && byte < 0xF8 then some 4
  else none

/-- The bytes of a character that is written as escapes. `more` of them are still to come; none
tells that the first is. -/
def escapedBytes? : (fuel : Nat) → (more : Option Nat) → Spot → Option (Tag × Spot)
  | 0, _, _ => none
  | _ + 1, some 0, spot => some ([], spot)
  | fuel + 1, more, spot => do
    guard (Text.startsWhere (· == '%') spot.rest)
    let (byte, next) ← hexNumber? 2 (spot.skip 1)
    let left ←
      match more with
      | none => sequenceLength? byte
      | some n => if 0x80 ≤ byte && byte < 0xC0 then some n else none
    let (bytes, stop) ← escapedBytes? fuel (some (left - 1)) next
    return (byte.toUInt8 :: bytes, stop)

/-- The bytes of a tag at a spot, and the spot after them. -/
def tagText? (verbatim : Bool) : (fuel : Nat) → Spot → Option (Tag × Spot)
  | 0, spot => some ([], spot)
  | fuel + 1, spot =>
    match spot.rest with
    | [] => some ([], spot)
    | c :: _ =>
      if c == '%' then do
        let (bytes, next) ← escapedBytes? 5 none spot
        let (more, stop) ← tagText? verbatim fuel next
        return (bytes ++ more, stop)
      else if isTagChar verbatim c then do
        let (more, stop) ← tagText? verbatim fuel (spot.skip 1)
        return (Utf8.encode [c] ++ more, stop)
      else some ([], spot)

/-- The bytes of a tag that is not empty. -/
def someTagText? (verbatim : Bool) (spot : Spot) : Option (Tag × Spot) := do
  let (bytes, stop) ← tagText? verbatim spot.rest.length spot
  guard (!bytes.isEmpty)
  return (bytes, stop)

/-- The handle of a tag at a spot, with its closing mark if there is one, and the spot after it. -/
def tagHandle (spot : Spot) : Text × Spot :=
  let (name, next) := (spot.skip 1).span isLabelChar
  if Text.startsWhere (· == '!') next.rest then ('!' :: name ++ ['!'], next.skip 1)
  else ('!' :: name, next)

/-- Whether a handle has both its marks. -/
def isClosedHandle (handle : Text) : Bool :=
  1 < handle.length && handle.getLast? == some '!'

/-- Reads a tag. Its handle is empty if the tag is complete, and one mark if it is local. -/
def tag? (flow : Bool) (spot : Spot) : Option (Token × Spot) := do
  let (token, stop) ←
    if Text.startsWith ['!', '<'] spot.rest then do
      let (suffix, stop) ← someTagText? true (spot.skip 2)
      guard (Text.startsWhere (· == '>') stop.rest)
      pure (Token.tag [] suffix, stop.skip 1)
    else
      let (handle, next) := tagHandle spot
      if isClosedHandle handle then do
        let (suffix, stop) ← someTagText? false next
        pure (Token.tag handle suffix, stop)
      else do
        let (more, stop) ← tagText? false next.rest.length next
        let suffix := Utf8.encode (handle.drop 1) ++ more
        pure (if suffix.isEmpty then Token.tag [] (Utf8.encode ['!']) else Token.tag ['!'] suffix, stop)
  guard (atGap stop.rest || (flow && Text.startsWhere (· == ',') stop.rest))
  return (token, stop)

/-- A number of at most nine digits at a spot, and the spot after it. -/
def versionNumber? (spot : Spot) : Option (Nat × Spot) :=
  let (digits, next) := spot.span isAsciiDigit
  if digits.isEmpty || 9 < digits.length then none
  else some (digits.foldl (fun n c => 10 * n + (c.toNat - 48)) 0, next)

/-- Reads what a directive of a version says. -/
def versionDirective? (spot : Spot) : Option (Token × Spot) := do
  let (major, spot) ← versionNumber? (spot.span isSpace).2
  guard (Text.startsWhere (· == '.') spot.rest)
  let (minor, spot) ← versionNumber? (spot.skip 1)
  return (.version major minor, spot)

/-- Reads what a directive of a tag handle says. -/
def handleDirective? (spot : Spot) : Option (Token × Spot) := do
  let spot := (spot.span isSpace).2
  guard (Text.startsWhere (· == '!') spot.rest)
  let (handle, spot) := tagHandle spot
  guard (handle == ['!'] || isClosedHandle handle)
  guard (Text.startsWhere isSpace spot.rest)
  let (start, spot) ← someTagText? true (spot.span isSpace).2
  guard (atGap spot.rest)
  return (.handle handle start, spot)

/-- Reads a directive after its mark, with the rest of its line. -/
def directive? (spot : Spot) : Option (Token × Spot) := do
  let (name, spot) := spot.span isLabelChar
  guard (atGap spot.rest)
  let (token, spot) ←
    if name == "YAML".toList then versionDirective? spot
    else if name == "TAG".toList then handleDirective? spot
    else none
  return (token, ← spot.nextLine?)

end Outline.Yaml
