import Outline.Config.Codec
import Outline.Declaration.Codec
import Outline.FileOutline.Basic

namespace Outline.FileOutline

/-- The names of the fields in documents. -/
def fieldNames : List String :=
  ["file_path", "language", "declarations", "imports", "error", "warnings"]

/-- An outline as an object. -/
def toJson (file : FileOutline) : Json :=
  .obj ([("file_path", .str file.path), ("language", .str file.language.tag),
    ("declarations", .arr (Declaration.toJsonAll file.declarations))] ++
    Json.fieldUnless file.imports.isEmpty "imports" (.strs file.imports) ++
    (file.error.map fun message => ("error", Json.str message)).toList ++
    Json.fieldUnless file.warnings.isEmpty "warnings" (.strs file.warnings))

/-- Reads an outline, with its fields by name or in their order. Unknown names are ignored. -/
def ofJson? (document : Json) : Option FileOutline := do
  let value := document.named fieldNames
  let path ← value.required? "file_path" Json.str?
  let language ← value.required? "language" Language.ofJson?
  let declarations ← value.required? "declarations" Declaration.ofItems?
  let imports ← value.optional? "imports" [] (Json.list? Json.str?)
  let error ← value.optional? "error" none (Json.nullable? Json.str?)
  let warnings ← value.optional? "warnings" [] (Json.list? Json.str?)
  return ⟨path, language, [], declarations, imports, error, warnings⟩

end Outline.FileOutline
