import Outline.Pattern.Basic

namespace Outline

/-- A remembered part: the number of characters before it, and its text. -/
structure Capture where
  start : Nat
  text : Text
deriving DecidableEq, Repr

/-- A place in a text with what was remembered on the way to it. -/
structure Cursor where
  /-- How many characters come before. -/
  pos : Nat
  /-- The characters before, back to front. -/
  seen : Text
  /-- The characters after. -/
  rest : Text
  /-- Remembered parts, the latest first. -/
  groups : List (Group × Capture)
deriving DecidableEq, Repr

namespace Cursor

/-- The start of a text. -/
def start (t : Text) : Cursor :=
  ⟨0, [], t, []⟩

/-- The part remembered under a label. -/
def capture? (cursor : Cursor) (label : Group) : Option Capture :=
  cursor.groups.lookup label

/-- The text remembered under a label. -/
def text? (cursor : Cursor) (label : Group) : Option Text :=
  (cursor.capture? label).map Capture.text

/-- Remembers what was passed between an earlier place and this one. -/
def remember (label : Group) (origin : Nat) (cursor : Cursor) : Cursor :=
  { cursor with
    groups := (label, ⟨origin, (cursor.seen.take (cursor.pos - origin)).reverse⟩) :: cursor.groups }

/-- Whether a condition holds at the place. -/
def holds (cursor : Cursor) : Assertion → Bool
  | .textStart => cursor.seen.isEmpty
  | .lineStart => cursor.seen.isEmpty || Text.startsWhere (· == '\n') cursor.seen
  | .textEnd => cursor.rest.isEmpty
  | .wordEdge => Text.startsWhere isWordChar cursor.seen != Text.startsWhere isWordChar cursor.rest

/-- One cursor for each place, the first that is listed. -/
def distinct : (visited : List Nat) → List Cursor → List Cursor
  | _, [] => []
  | visited, cursor :: rest =>
    if visited.contains cursor.pos then distinct visited rest
    else cursor :: distinct (cursor.pos :: visited) rest

/-- The places reached by passing over characters of a class, the nearest first. -/
def runFrom (cls : CharClass) (groups : List (Group × Capture)) :
    (pos : Nat) → (seen rest : Text) → List Cursor
  | pos, seen, [] => [⟨pos, seen, [], groups⟩]
  | pos, seen, c :: rest =>
    ⟨pos, seen, c :: rest, groups⟩ ::
      if cls.contains c then runFrom cls groups (pos + 1) (c :: seen) rest else []

/-- What is left to do while rounds of a repetition are tried. -/
inductive Task where
  /-- Try further rounds from a place. -/
  | visit (cursor : Cursor)
  /-- End the repetition at a place. -/
  | emit (cursor : Cursor)

/-- The places where a repetition can end, in order of preference. A place is tried once: every way on
from it was listed when it was tried first. -/
def rounds (body : Cursor → List Cursor) (greedy : Bool) :
    (fuel : Nat) → (visited : List Nat) → List Task → List Cursor
  | 0, _, _ => []
  | _, _, [] => []
  | fuel + 1, visited, .emit cursor :: tasks => cursor :: rounds body greedy fuel visited tasks
  | fuel + 1, visited, .visit cursor :: tasks =>
    if visited.contains cursor.pos then rounds body greedy fuel visited tasks
    else
      let next := (body cursor).map Task.visit
      let ordered := if greedy then next ++ [.emit cursor] else .emit cursor :: next
      rounds body greedy fuel (cursor.pos :: visited) (ordered ++ tasks)

end Cursor

namespace Pattern

/-- The places to which the pattern leads from a place, in order of preference. -/
def advance : Pattern → Cursor → List Cursor
  | .empty, cursor => [cursor]
  | .one cls, cursor =>
    match cursor.rest with
    | [] => []
    | c :: rest =>
      if cls.contains c then [⟨cursor.pos + 1, c :: cursor.seen, rest, cursor.groups⟩] else []
  | .run cls greedy, cursor =>
    let places := Cursor.runFrom cls cursor.groups cursor.pos cursor.seen cursor.rest
    if greedy then places.reverse else places
  | .assert condition, cursor => if cursor.holds condition then [cursor] else []
  | .seq first second, cursor => Cursor.distinct [] ((advance first cursor).flatMap (advance second))
  | .alt first second, cursor => Cursor.distinct [] (advance first cursor ++ advance second cursor)
  | .star body greedy, cursor =>
    let size := cursor.rest.length + 2
    Cursor.rounds (advance body) greedy (size * size) [] [.visit cursor]
  | .group label body, cursor => (advance body cursor).map (Cursor.remember label cursor.pos)

/-- The match at the start of a text. -/
def matchStart? (p : Pattern) (t : Text) : Option Cursor :=
  (p.advance (.start t)).head?

/-- The matches found from left to right, none of which overlap. The first `skip` characters belong to
the match before. -/
def findFrom (p : Pattern) : (skip pos : Nat) → (seen rest : Text) → List Cursor
  | _, _, _, [] => []
  | skip + 1, pos, seen, c :: rest => findFrom p skip (pos + 1) (c :: seen) rest
  | 0, pos, seen, c :: rest =>
    match (p.advance ⟨pos, seen, c :: rest, []⟩).head? with
    | some found => found :: findFrom p (found.pos - pos - 1) (pos + 1) (c :: seen) rest
    | none => findFrom p 0 (pos + 1) (c :: seen) rest

/-- All matches in a text, from left to right. The pattern takes at least one character. -/
def findAll (p : Pattern) (t : Text) : List Cursor :=
  p.findFrom 0 0 [] t

end Pattern

end Outline
