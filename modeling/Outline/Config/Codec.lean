import Outline.Config.Basic

namespace Outline

/-- Reads a language by its tag. -/
def Language.ofJson? (value : Json) : Option Language :=
  value.choice?.bind Language.ofTag?

namespace Config

/-- Reads the overrides of extensions. -/
def overridesOfJson? (value : Json) : Option (List (String × Language)) := do
  let fields ← value.fields?
  let entries ← fields.mapM fun field =>
    (Language.ofJson? field.2).map fun language => (field.1, language)
  return overridesOf entries

/-- The names of the settings in documents. -/
def fieldNames : List String :=
  ["workers", "extension_overrides", "extract_imports", "show_progress", "cache", "limits"]

/-- Reads a configuration, usable or not, with its settings by name or in the order of the names. -/
def ofJson? (document : Json) : Option Config := do
  let value := document.named fieldNames
  guard value.isObj
  let standard : Config := {}
  let workers ← value.optional? "workers" standard.workers Json.word?
  let overrides ← value.optional? "extension_overrides" [] overridesOfJson?
  let extractImports ← value.optional? "extract_imports" standard.extractImports Json.bool?
  let showProgress ← value.optional? "show_progress" standard.showProgress Json.bool?
  let cache ← value.optional? "cache" standard.cache Json.bool?
  let limits ← value.optional? "limits" standard.limits Limits.ofJson?
  return ⟨workers, overrides, extractImports, showProgress, cache, limits⟩

/-- A configuration as an object with every field. -/
def toJson (config : Config) : Json :=
  .obj [("workers", .nat config.workers),
    ("extension_overrides",
      .obj (config.extensionOverrides.map fun entry => (entry.1, Json.str entry.2.tag))),
    ("extract_imports", .bool config.extractImports), ("show_progress", .bool config.showProgress),
    ("cache", .bool config.cache), ("limits", config.limits.toJson)]

end Config

end Outline
