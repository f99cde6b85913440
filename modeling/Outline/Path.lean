import Outline.Text.Basic

namespace Outline.Path

/-- One part of a path. -/
inductive Component where
  | root
  | current
  | parent
  | name (text : Text)
deriving DecidableEq, Repr

/-- The component that a non-empty piece between slashes stands for. -/
def Component.ofPiece (piece : Text) : Component :=
  if piece = ['.', '.'] then .parent else .name piece

/-- The parts of a path. A leading slash is the root; a leading `.` of a relative path is kept. -/
def components (path : Text) : List Component :=
  let pieces := path.splitWhere (· == '/')
  let named := (pieces.filter fun piece => piece ≠ [] && piece ≠ ['.']).map Component.ofPiece
  if path.startsWhere (· == '/') then .root :: named
  else if pieces.head? = some ['.'] then .current :: named
  else named

/-- The last part, when it is a name. -/
def fileName? (path : Text) : Option Text :=
  match (components path).getLast? with
  | some (.name text) => some text
  | _ => none

/-- What follows the last dot of the last part. A dot that opens the name does not count, and a
path without a name has no extension. -/
def extension? (path : Text) : Option Text :=
  match fileName? path with
  | none => none
  | some name =>
    let extension := (name.reverse.takeWhile (· ≠ '.')).reverse
    if extension.length + 1 < name.length then some extension else none

/-- The text of a component. -/
def Component.text : Component → Text
  | .root => ['/']
  | .current => ['.']
  | .parent => ['.', '.']
  | .name text => text

/-- A name in a directory as a path. -/
def join (directory name : Text) : Text :=
  if directory = [] then name
  else if directory.getLast? = some '/' then directory ++ name
  else directory ++ '/' :: name

/-- Whether a piece between slashes adds nothing to a path. -/
def isIdle (piece : Text) : Bool :=
  piece == [] || piece == ['.']

/-- Pieces without idle ones at the end. -/
def dropIdleEnd (pieces : List Text) : List Text :=
  (pieces.reverse.dropWhile isIdle).reverse

/-- Pieces after the first `count` that are not idle. -/
def dropNamed : (count : Nat) → List Text → List Text
  | 0, pieces => pieces
  | _ + 1, [] => []
  | count + 1, piece :: rest =>
    if isIdle piece then dropNamed (count + 1) rest else dropNamed count rest

/-- The path without idle pieces at its end. A leading slash or `.` stays. -/
def dropIdleTail (path : Text) : Text :=
  match path.splitWhere (· == '/') with
  | [] => []
  | first :: rest =>
    if isIdle first then
      if path.startsWhere (· == '/') then '/' :: Text.join ['/'] (dropIdleEnd rest)
      else Text.join ['/'] (first :: dropIdleEnd rest)
    else Text.join ['/'] (dropIdleEnd (first :: rest))

/-- The rest of a path after its first `count` components, without idle pieces at either end. -/
def dropComponents (count : Nat) (path : Text) : Text :=
  match count with
  | 0 => dropIdleTail path
  | rest + 1 =>
    let pieces := path.splitWhere (· == '/')
    let left :=
      if (pieces.head?.map isIdle).getD false then dropNamed rest pieces.tail
      else dropNamed (rest + 1) pieces
    Text.join ['/'] (dropIdleEnd (left.dropWhile isIdle))

/-- The path relative to a base that its components start with. -/
def relative? (base path : Text) : Option Text :=
  let start := components base
  if start.isPrefixOf (components path) then some (dropComponents start.length path) else none

end Outline.Path
