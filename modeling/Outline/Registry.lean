import Outline.Config.Basic
import Outline.Path
import Outline.Scanner

namespace Outline

/-- The language of a path by its extension alone. -/
def Language.ofPath (path : Text) : Except Fault Language :=
  match (Path.extension? path).bind Language.ofExtension? with
  | some language => .ok language
  | none =>
    .error (.unsupported (String.ofList path) (String.ofList ((Path.extension? path).getD [])))

/-- The scanners at hand, each for a language, and the languages of extensions that differ from the
built-in ones. -/
structure Registry where
  /-- Normalised extensions with their languages; of two for one extension the later holds. -/
  overrides : List (Text × Language)
  /-- The scanner of a language, if there is one. -/
  scanner? : Language → Option Scanner

namespace Registry

/-- A registry without scanners. -/
def empty (config : Config) : Registry where
  overrides := config.extensionOverrides.map fun entry =>
    (Language.normalizeExtension entry.1.toList, entry.2)
  scanner? := fun _ => none

/-- A registry with the scanner of every language. -/
def full (config : Config) : Registry :=
  { empty config with scanner? := fun language => some (Scanner.ofGrammar config.limits language) }

/-- Sets the scanner of a language, in place of any earlier one. -/
def register (registry : Registry) (language : Language) (scanner : Scanner) : Registry :=
  { registry with
    scanner? := fun other => if other = language then some scanner else registry.scanner? other }

/-- The languages that have a scanner, in display order. -/
def languages (registry : Registry) : List Language :=
  Language.all.filter fun language => (registry.scanner? language).isSome

/-- The language that an override gives to a normalised extension. -/
def override? (registry : Registry) (extension : Text) : Option Language :=
  (registry.overrides.reverse.find? fun entry => entry.1 == extension).map Prod.snd

/-- The language of a path. An override of its extension wins over the built-in assignment, and the
language must have a scanner. -/
def languageOf (registry : Registry) (path : Text) : Except Fault Language :=
  let extension := Text.lower ((Path.extension? path).getD [])
  let chosen := (registry.override? extension).or (Language.ofExtension? extension)
  match chosen.filter fun language => (registry.scanner? language).isSome with
  | some language => .ok language
  | none => .error (.unsupported (String.ofList path) (String.ofList extension))

/-- The scanner of the language of a path. -/
def scannerOf (registry : Registry) (path : Text) : Except Fault Scanner :=
  match registry.languageOf path with
  | .error fault => .error fault
  | .ok language =>
    match registry.scanner? language with
    | some scanner => .ok scanner
    | none => .error (.unsupported (String.ofList path) language.tag)

end Registry

end Outline
