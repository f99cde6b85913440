import Outline.Declaration.Modifiers
import Outline.Kind
import Outline.Text.Basic

namespace Outline

/-- What is known of one declaration apart from what stands inside it. Lines count from one and
both ends belong to the range. -/
structure Entry where
  kind : Kind
  name : String
  startLine : Nat
  endLine : Nat
  modifiers : Modifiers
  docstring : Option String
deriving DecidableEq, Inhabited

/-- A declaration with the declarations inside it. -/
structure Declaration where
  entry : Entry
  children : List Declaration
deriving Inhabited

namespace Declaration

/-- The kind of the declaration. -/
def kind (d : Declaration) : Kind := d.entry.kind

/-- The name of the declaration. -/
def name (d : Declaration) : String := d.entry.name

/-- The first line of the declaration. -/
def startLine (d : Declaration) : Nat := d.entry.startLine

/-- The last line of the declaration. -/
def endLine (d : Declaration) : Nat := d.entry.endLine

/-- The modifiers of the declaration. -/
def modifiers (d : Declaration) : Modifiers := d.entry.modifiers

/-- The documentation of the declaration. -/
def docstring (d : Declaration) : Option String := d.entry.docstring

/-- A declaration without documentation, modifiers or children. A blank name declares nothing; line
numbers start at one, and a last line before the first is raised to it. -/
def declare? (kind : Kind) (name : String) (startLine endLine : Nat) : Option Declaration :=
  let trimmed := Text.trim name.toList
  if trimmed.isEmpty then none
  else
    let first := max startLine 1
    some ⟨⟨kind, String.ofList trimmed, first, max endLine first, .empty, none⟩, []⟩

/-- Sets the documentation; blank text counts as none. -/
def withDocstring (d : Declaration) (docstring : Option String) : Declaration :=
  let kept := docstring.filter fun doc => !Text.isBlankText doc.toList
  ⟨⟨d.kind, d.name, d.startLine, d.endLine, d.modifiers, kept⟩, d.children⟩

/-- Adds modifiers. -/
def withModifiers (d : Declaration) (words : List String) : Declaration :=
  ⟨⟨d.kind, d.name, d.startLine, d.endLine, d.modifiers.insertAll words, d.docstring⟩, d.children⟩

/-- Puts declarations inside. -/
def withChildren (d : Declaration) (children : List Declaration) : Declaration :=
  ⟨d.entry, children⟩

/-- How many lines the declaration covers. -/
def lineCount (d : Declaration) : Nat :=
  d.endLine - d.startLine + 1

/-- Whether the range of `other` lies within the range of `d`. -/
def contains (d other : Declaration) : Bool :=
  d.startLine ≤ other.startLine && other.endLine ≤ d.endLine

mutual

/-- The declaration and everything inside it, depth first. -/
def walk : Declaration → List Declaration
  | ⟨entry, children⟩ => ⟨entry, children⟩ :: walkAll children

/-- Everything in a list of declarations, depth first. -/
def walkAll : List Declaration → List Declaration
  | [] => []
  | d :: rest => walk d ++ walkAll rest

end

mutual

/-- Depth of the tree; a declaration without children has depth one. -/
def depth : Declaration → Nat
  | ⟨_, children⟩ => depthAll children + 1

/-- Depth of the deepest tree of a list, zero if there is none. -/
def depthAll : List Declaration → Nat
  | [] => 0
  | d :: rest => max (depth d) (depthAll rest)

end

mutual

/-- How many declarations the tree holds. -/
def total : Declaration → Nat
  | ⟨_, children⟩ => 1 + totalAll children

/-- How many declarations the trees of a list hold. -/
def totalAll : List Declaration → Nat
  | [] => 0
  | d :: rest => total d + totalAll rest

end

/-- The first declaration of that name, depth first. -/
def find? (name : String) (declarations : List Declaration) : Option Declaration :=
  (walkAll declarations).find? fun d => d.name == name

/-- All declarations of that kind, depth first. -/
def ofKind (kind : Kind) (declarations : List Declaration) : List Declaration :=
  (walkAll declarations).filter fun d => d.kind == kind

end Declaration

end Outline
