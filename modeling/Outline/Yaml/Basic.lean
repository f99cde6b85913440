import Outline.Yaml.Layout

namespace Outline

/-- A YAML value. Anchors are numbered. -/
inductive Yaml where
  /-- The value at an anchor. -/
  | reference (anchor : Nat)
  | scalar (anchor : Option Nat) (style : Yaml.Style) (tag : Option Yaml.Tag) (text : Text)
  | sequence (anchor : Option Nat) (items : List Yaml)
  | mapping (anchor : Option Nat) (fields : List (Yaml × Yaml))
deriving Repr, Inhabited

namespace Yaml

/-- The value where nothing stands. -/
def absent : Yaml :=
  .scalar none .plain none []

mutual

/-- The last value that carries an anchor, in the order of the text. -/
def anchored? (anchor : Nat) : Yaml → Option Yaml
  | .reference _ => none
  | .scalar found style tag text =>
    if found = some anchor then some (.scalar found style tag text) else none
  | .sequence found items =>
    anchoredItem? anchor items <|> if found = some anchor then some (.sequence found items) else none
  | .mapping found fields =>
    anchoredField? anchor fields <|> if found = some anchor then some (.mapping found fields) else none

/-- The last value among items that carries an anchor. -/
def anchoredItem? (anchor : Nat) : List Yaml → Option Yaml
  | [] => none
  | item :: items => anchoredItem? anchor items <|> anchored? anchor item

/-- The last value among fields that carries an anchor. -/
def anchoredField? (anchor : Nat) : List (Yaml × Yaml) → Option Yaml
  | [] => none
  | (key, value) :: fields =>
    anchoredField? anchor fields <|> anchored? anchor value <|> anchored? anchor key

end

/-- The value that a part of a document stands for. -/
def resolve? (document : Yaml) : Yaml → Option Yaml
  | .reference anchor => document.anchored? anchor
  | value => some value

/-- What a reader of tokens has before it. -/
structure Reader where
  tokens : List Token
  /-- The number that each name of an anchor has. -/
  anchors : List (Text × Nat) := []
  /-- What each tag handle stands for. -/
  handles : List (Text × Tag) := []

/-- Reading tokens, which may fail. -/
abbrev Read := StateT Reader Option

namespace Reader

/-- The next token. -/
def peek : Read (Option Token) :=
  return (← get).tokens.head?

/-- Passes over the next token. -/
def advance : Read Unit :=
  modify fun reader => { reader with tokens := reader.tokens.tail }

/-- Whether the next token is one of those given. -/
def isNext (tokens : List Token) : Read Bool :=
  return ((← peek).map tokens.contains).getD false

/-- Passes over the next token if it is the one given, and tells whether it was. -/
def skip (token : Token) : Read Bool := do
  if ← isNext [token] then
    advance
    return true
  else return false

/-- The number of an anchor that has been named. -/
def anchorOf (name : Text) : Read Nat := do
  match (← get).anchors.lookup name with
  | some anchor => return anchor
  | none => failure

/-- Gives a name to an anchor. Its number is how many names there were, so a name that is used again
can share the number of a later one. -/
def nameAnchor (name : Text) : Read Nat := do
  let anchors := (← get).anchors
  let number := anchors.length
  modify fun reader => { reader with
    anchors :=
      if (anchors.lookup name).isSome then
        anchors.map fun entry => if entry.1 == name then (name, number) else entry
      else (name, number) :: anchors }
  return number

/-- The handles that need no directive. -/
def standardHandles : List (Text × Tag) :=
  [(['!'], Utf8.encode ['!']), (['!', '!'], Utf8.encode "tag:yaml.org,2002:".toList)]

/-- The tag that a handle and a suffix stand for. -/
def tagOf (handle : Text) (suffix : Tag) : Read Tag := do
  if handle.isEmpty then return suffix
  match ((← get).handles ++ standardHandles).lookup handle with
  | some start => return start ++ suffix
  | none => failure

/-- Reads the name of an anchor, if one stands here. -/
def anchor : Read (Option Nat) := do
  match ← peek with
  | some (.anchor name) =>
    advance
    return some (← nameAnchor name)
  | _ => return none

/-- Reads a tag, if one stands here. -/
def tag : Read (Option Tag) := do
  match ← peek with
  | some (.tag handle suffix) =>
    advance
    return some (← tagOf handle suffix)
  | _ => return none

/-- Reads an anchor and a tag, in either order. -/
def properties : Read (Option Nat × Option Tag) := do
  match ← anchor with
  | some number => return (some number, ← tag)
  | none =>
    match ← tag with
    | some name => return (← anchor, some name)
    | none => return (none, none)

mutual

/-- Reads a value. Block collections are admitted with `block`, and with `indentless` a sequence
whose dashes are not indented. -/
def node : (fuel : Nat) → (block indentless : Bool) → Read Yaml
  | 0, _, _ => failure
  | fuel + 1, block, indentless => do
    match ← peek with
    | some (.reference name) =>
      advance
      return .reference (← anchorOf name)
    | _ =>
      let (anchor, tag) ← properties
      match ← peek with
      | some (.scalar style text) =>
        advance
        return .scalar anchor style tag text
      | some .openSequence =>
        advance
        return .sequence anchor (← flowItems fuel true)
      | some .openMapping =>
        advance
        return .mapping anchor (← flowFields fuel true)
      | token =>
        if indentless && token == some .entry then return .sequence anchor (← indentlessItems fuel)
        else if block && token == some .sequenceStart then
          advance
          return .sequence anchor (← blockItems fuel)
        else if block && token == some .mappingStart then
          advance
          return .mapping anchor (← blockFields fuel)
        else if anchor.isSome || tag.isSome then return .scalar anchor .plain tag []
        else failure

/-- Reads a value unless one of the tokens given comes first; then the value is absent. -/
def nodeBefore : (fuel : Nat) → (block indentless : Bool) → (stops : List Token) → Read Yaml
  | 0, _, _, _ => failure
  | fuel + 1, block, indentless, stops => do
    if ← isNext stops then return absent else node fuel block indentless

/-- Reads a value and the mark before it; without the mark the value is absent. -/
def valueBefore : (fuel : Nat) → (block : Bool) → (stops : List Token) → Read Yaml
  | 0, _, _ => failure
  | fuel + 1, block, stops => do
    if ← skip .value then nodeBefore fuel block block stops else return absent

/-- Reads the items of a block sequence and its end. -/
def blockItems : (fuel : Nat) → Read (List Yaml)
  | 0 => failure
  | fuel + 1 => do
    if ← skip .entry then
      let item ← nodeBefore fuel true false [.entry, .blockEnd]
      return item :: (← blockItems fuel)
    else if ← skip .blockEnd then return []
    else failure

/-- Reads the items of a sequence whose dashes are not indented. -/
def indentlessItems : (fuel : Nat) → Read (List Yaml)
  | 0 => failure
  | fuel + 1 => do
    if ← skip .entry then
      let item ← nodeBefore fuel true false [.entry, .key, .value, .blockEnd]
      return item :: (← indentlessItems fuel)
    else return []

/-- Reads the fields of a block mapping and its end. -/
def blockFields : (fuel : Nat) → Read (List (Yaml × Yaml))
  | 0 => failure
  | fuel + 1 => do
    if ← skip .key then
      let stops := [Token.key, .value, .blockEnd]
      let key ← nodeBefore fuel true true stops
      let value ← valueBefore fuel true stops
      return (key, value) :: (← blockFields fuel)
    else if ← skip .blockEnd then return []
    else failure

/-- Reads the items of a flow sequence and its end. A key among them makes a mapping of one field.
-/
def flowItems : (fuel : Nat) → (first : Bool) → Read (List Yaml)
  | 0, _ => failure
  | fuel + 1, first => do
    if ← skip .closeSequence then return []
    unless first do
      unless ← skip .comma do failure
    if ← skip .key then
      let pair ← flowPair fuel
      return .mapping none [pair] :: (← flowItems fuel false)
    else if ← skip .closeSequence then return []
    else
      let item ← node fuel false false
      return item :: (← flowItems fuel false)

/-- Reads a key inside a flow sequence and its value. A key that is left out takes the token after
it along. -/
def flowPair : (fuel : Nat) → Read (Yaml × Yaml)
  | 0 => failure
  | fuel + 1 => do
    let key ←
      if ← isNext [.value, .comma, .closeSequence] then
        advance
        pure absent
      else node fuel false false
    return (key, ← valueBefore fuel false [.comma, .closeSequence])

/-- Reads the fields of a flow mapping and its end. -/
def flowFields : (fuel : Nat) → (first : Bool) → Read (List (Yaml × Yaml))
  | 0, _ => failure
  | fuel + 1, first => do
    if ← skip .closeMapping then return []
    unless first do
      unless ← skip .comma do failure
    if ← skip .key then
      let key ← nodeBefore fuel false false [.value, .comma, .closeMapping]
      let value ← valueBefore fuel false [.comma, .closeMapping]
      return (key, value) :: (← flowFields fuel false)
    else if ← skip .closeMapping then return []
    else
      let key ← node fuel false false
      return (key, absent) :: (← flowFields fuel false)

end

/-- Reads the directives of a document. A version is given at most once and has to be known, and no
handle is given twice. -/
def directives : (fuel : Nat) → (versioned : Bool) → Read Unit
  | 0, _ => failure
  | fuel + 1, versioned => do
    match ← peek with
    | some (.version major minor) =>
      if versioned || major != 1 || (minor != 1 && minor != 2) then failure
      advance
      directives fuel true
    | some (.handle name start) =>
      if ((← get).handles.lookup name).isSome then failure
      advance
      modify fun reader => { reader with handles := reader.handles ++ [(name, start)] }
      directives fuel versioned
    | _ => return ()

/-- Whether a token can only stand before the start of a document. -/
def announcesDocument : Token → Bool
  | .version _ _ | .handle _ _ | .documentStart => true
  | _ => false

/-- Passes over the marks of the end of a document, after which nothing may come. -/
def finish : Read Unit := do
  modify fun reader => { reader with tokens := reader.tokens.dropWhile (· == .documentEnd) }
  unless (← peek).isNone do failure

/-- Reads what stands after the start of a document, if anything does. -/
def content (fuel : Nat) : Read Yaml := do
  match ← peek with
  | none => return absent
  | some token =>
    if announcesDocument token || token == .documentEnd then return absent else node fuel true false

/-- Reads the only document of a text. -/
def document : Read Yaml := do
  let fuel := 5 * (← get).tokens.length + 5
  match ← peek with
  | none => return absent
  | some token =>
    if announcesDocument token then
      directives fuel false
      unless ← skip .documentStart do failure
      let root ← content fuel
      finish
      return root
    else
      let root ← node fuel true false
      finish
      return root

end Reader

/-- Reads a text that holds one document. -/
def parse? (t : Text) : Option Yaml := do
  let (root, _) ← Reader.document.run { tokens := ← tokens? t }
  return root

end Yaml

end Outline
