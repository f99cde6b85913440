import Outline.Declaration.Basic
import Outline.Json.Basic

namespace Outline

/-- A field that is left out when there is nothing to write. -/
def Json.fieldUnless (omitted : Bool) (name : String) (value : Json) : List (String × Json) :=
  if omitted then [] else [(name, value)]

namespace Kind

/-- Reads a kind by its tag. -/
def ofJson? (value : Json) : Option Kind :=
  value.choice?.bind ofTag?

end Kind

namespace Entry

/-- The fields of an entry, in writing order. -/
def fields (entry : Entry) : List (String × Json) :=
  [("kind", .str entry.kind.tag), ("name", .str entry.name), ("start_line", .nat entry.startLine),
    ("end_line", .nat entry.endLine)] ++
    Json.fieldUnless entry.modifiers.words.isEmpty "modifiers" (.strs entry.modifiers.words) ++
    (entry.docstring.map fun doc => ("docstring", Json.str doc)).toList

/-- The names of the fields of an entry. -/
def fieldNames : List String :=
  ["kind", "name", "start_line", "end_line", "modifiers", "docstring"]

/-- Reads an entry from the fields of a declaration. -/
def ofJson? (value : Json) : Option Entry := do
  let kind ← value.required? "kind" Kind.ofJson?
  let name ← value.required? "name" Json.str?
  let startLine ← value.required? "start_line" Json.word?
  let endLine ← value.required? "end_line" Json.word?
  let modifiers ← value.optional? "modifiers" [] (Json.list? Json.str?)
  let docstring ← value.optional? "docstring" none (Json.nullable? Json.str?)
  return ⟨kind, name, startLine, endLine, .ofList modifiers, docstring⟩

end Entry

namespace Declaration

mutual

/-- A declaration as a JSON object. -/
def toJson : Declaration → Json
  | ⟨entry, children⟩ =>
    .obj (entry.fields ++ Json.fieldUnless children.isEmpty "children" (.arr (toJsonAll children)))

/-- Declarations as JSON objects. -/
def toJsonAll : List Declaration → List Json
  | [] => []
  | d :: rest => toJson d :: toJsonAll rest

end

mutual

/-- Reads a declaration, with its fields by name or in their order. Unknown names are ignored, and
the lines are taken as they are. How deep declarations may nest is up to the reader of the document. -/
def ofJson? : Json → Option Declaration
  | .obj fields =>
    match Entry.ofJson? (.obj fields), childrenOf? fields with
    | some entry, some children => some ⟨entry, children⟩
    | _, _ => none
  | .arr items =>
    match Entry.ofJson? (.obj (Entry.fieldNames.zip items)),
      childrenAfter? Entry.fieldNames.length items with
    | some entry, some children => some ⟨entry, children⟩
    | _, _ => none
  | _ => none

/-- Reads the children that follow `count` other items; they are the last item, and may be missing. -/
def childrenAfter? : (count : Nat) → List Json → Option (List Declaration)
  | _, [] => some []
  | 0, [item] => ofItems? item
  | 0, _ => none
  | count + 1, _ :: rest => childrenAfter? count rest

/-- Reads the field of children, which may be missing. -/
def childrenOf? : List (String × Json) → Option (List Declaration)
  | [] => some []
  | (name, value) :: rest => if name == "children" then ofItems? value else childrenOf? rest

/-- Reads a list of declarations. -/
def ofItems? : Json → Option (List Declaration)
  | .arr items => ofList? items
  | _ => none

/-- Reads every item as a declaration. -/
def ofList? : List Json → Option (List Declaration)
  | [] => some []
  | item :: rest =>
    match ofJson? item, ofList? rest with
    | some d, some ds => some (d :: ds)
    | _, _ => none

end

end Declaration

end Outline
