import Outline.Declaration.Basic

namespace Outline

/-- An entry that takes from another what it lacks: documentation, if it has none, and modifiers. -/
def Entry.fill (entry other : Entry) : Entry :=
  ⟨entry.kind, entry.name, entry.startLine, entry.endLine, entry.modifiers.union other.modifiers,
    entry.docstring.or other.docstring⟩

/-- Changes the first item that satisfies `p`, or appends `fresh` if there is none. -/
def updateFirst (p : α → Bool) (change : α → α) (fresh : α) : List α → List α
  | [] => [fresh]
  | item :: rest => if p item then change item :: rest else item :: updateFirst p change fresh rest

namespace Declaration

/-- Two declarations are the same when kind and name agree and their ranges overlap. -/
def same (a b : Declaration) : Bool :=
  a.kind == b.kind && a.name == b.name && a.startLine ≤ b.endLine && b.startLine ≤ a.endLine

/-- The order of merged declarations: by first line, then by name. -/
def before (a b : Declaration) : Bool :=
  a.startLine < b.startLine || (a.startLine == b.startLine && a.name ≤ b.name)

/-- Declarations in merged order; equal ones keep their places. -/
def sorted (declarations : List Declaration) : List Declaration :=
  declarations.mergeSort before

/-- Whether a declaration may become a child of `parent`: it lies inside, or a child is the same. -/
def admits (parent child : Declaration) : Bool :=
  parent.contains child || parent.children.any fun d => d.same child

mutual

/-- Puts one secondary declaration into a list: the first declaration that is the same absorbs it
with its children, and if there is none it is appended. -/
def place (merged : List Declaration) : Declaration → List Declaration
  | ⟨entry, children⟩ =>
    updateFirst (fun d => d.same ⟨entry, children⟩)
      (fun d => ⟨d.entry.fill entry, sorted (placeAll d.admits d.children children)⟩)
      ⟨entry, children⟩ merged

/-- Puts those secondary declarations into a list that `admitted` lets in, one after the other. -/
def placeAll (admitted : Declaration → Bool) (merged : List Declaration) :
    List Declaration → List Declaration
  | [] => merged
  | other :: rest =>
    placeAll admitted (if admitted other then place merged other else merged) rest

end

/-- Merges a secondary outline into a primary one. -/
def merge (primary secondary : List Declaration) : List Declaration :=
  sorted (placeAll (fun _ => true) primary secondary)

end Declaration

end Outline
