import Outline.Pattern.Match

namespace Outline

/-- Words that begin a statement, and so never stand where a type would. -/
def statementWords : List Text :=
  ["return", "else", "case", "new", "delete", "throw", "goto", "sizeof", "typedef", "using",
    "co_return", "co_yield", "co_await", "if", "while", "for", "switch", "do", "yield", "await",
    "assert", "throws"].map String.toList

/-- The first identifier of a text. -/
def firstName? (t : Text) : Option Text :=
  (Text.splitWhere (fun c => !isNameChar c) t).find? fun word => !word.isEmpty

/-- The identifier that ends a text. -/
def lastName (t : Text) : Text :=
  (t.reverse.takeWhile isNameChar).reverse

/-- The name that a type definition introduces: the identifier after `(*`, or else the last one. -/
def typedefName? (body : Text) : Option Text :=
  let name :=
    match Text.cut? ['(', '*'] body with
    | some (_, rest) => rest.takeWhile isNameChar
    | none => lastName (Text.trimEnd body)
  if name.isEmpty then none else some name

/-- The text without what stands between angle brackets; the head of an arrow is no bracket. -/
def dropGenerics : (depth : Nat) → (previous : Char) → Text → Text
  | _, _, [] => []
  | depth, previous, c :: t =>
    if c = '<' then dropGenerics (depth + 1) c t
    else if c = '>' && previous ≠ '-' && 0 < depth then dropGenerics (depth - 1) c t
    else if depth = 0 then c :: dropGenerics depth c t
    else dropGenerics depth c t

/-- The name of an implementation block: its header without generic arguments, the clause of bounds and
the body. -/
def implName? (header : Text) : Option Text :=
  let plain := (dropGenerics 0 ' ' header).takeWhile (· ≠ '{')
  let bounded := ((Text.cut? " where ".toList plain).map Prod.fst).getD plain
  let trimmed := Text.trim (Text.stripEndAll "where".toList (Text.trim bounded))
  let name := Text.join [' '] (Text.words trimmed)
  if Text.startsWhere (fun c => isLetter c || c == '_' || c == '!' || c == '&' || c == ':') name then
    some name
  else none

/-- Where the name of a match is found. -/
inductive Naming where
  /-- The marked name. -/
  | marked
  /-- The marked name, unless a statement word stands where its type would. -/
  | afterType
  /-- The marked name, unless it is a statement word itself. -/
  | member
  /-- The name that a type definition introduces. -/
  | typeDefinition
  /-- The header of an implementation block. -/
  | implHeader
deriving DecidableEq, Repr

/-- The name of a match; without one the match declares nothing. -/
def Naming.name? (found : Cursor) : Naming → Option Text
  | .marked => found.text? .name
  | .afterType =>
    match firstName? ((found.text? .type).getD []) with
    | some first => if statementWords.contains first then none else found.text? .name
    | none => found.text? .name
  | .member =>
    match found.text? .name with
    | some name => if statementWords.contains (name.dropWhile (· == '~')) then none else some name
    | none => none
  | .typeDefinition => (found.text? .body).bind typedefName?
  | .implHeader => (found.text? .body).bind implName?

end Outline
