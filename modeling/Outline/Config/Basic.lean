import Outline.Error
import Outline.Language
import Outline.Limits

namespace Outline

/-- Settings of a scan. -/
structure Config where
  /-- Workers that share the files of a batch. -/
  workers : Nat := 4
  /-- Languages of extensions that differ from the built-in ones, by increasing extension. -/
  extensionOverrides : List (String × Language) := []
  /-- Whether imports are extracted. -/
  extractImports : Bool := true
  /-- Whether progress is drawn while scanning. -/
  showProgress : Bool := false
  /-- Whether the result of a file is kept for its next scan. -/
  cache : Bool := false
  limits : Limits := {}
deriving Repr, Inhabited

namespace Config

/-- Sets the language of an extension in a list by increasing extension. -/
def insertOverride (extension : String) (language : Language) :
    List (String × Language) → List (String × Language)
  | [] => [(extension, language)]
  | head :: rest =>
    if extension < head.1 then (extension, language) :: head :: rest
    else if head.1 < extension then head :: insertOverride extension language rest
    else (extension, language) :: rest

/-- Overrides by increasing extension; of two for one extension the later holds. -/
def overridesOf (entries : List (String × Language)) : List (String × Language) :=
  entries.foldl (fun overrides entry => insertOverride entry.1 entry.2 overrides) []

/-- Whether an extension cannot be the extension of a path. -/
def isImpossibleExtension (extension : String) : Bool :=
  let stem := extension.toList.dropWhile (· == '.')
  stem.isEmpty || stem.any fun c => c == '/' || c == '\\'

/-- The first reason for which a configuration is unusable. -/
def defect? (config : Config) : Option String :=
  if config.workers = 0 then some "workers must be at least 1"
  else
    let bounds := [("max_block_span", config.limits.maxBlockSpan),
      ("max_iterations", config.limits.maxIterations), ("max_depth", config.limits.maxDepth),
      ("max_declarations", config.limits.maxDeclarations)]
    match bounds.find? fun bound => bound.2 == 0 with
    | some bound => some ("limits." ++ bound.1 ++ " must be at least 1")
    | none =>
      match config.extensionOverrides.find? fun entry => isImpossibleExtension entry.1 with
      | some entry => some ("invalid extension override '" ++ entry.1 ++ "'")
      | none => none

/-- The configuration, if it is usable. -/
def validate (config : Config) : Except Fault Config :=
  match config.defect? with
  | some message => .error (.badConfig message)
  | none => .ok config

/-- The language of an extension. The first override for it wins over the built-in assignment. -/
def languageOf? (config : Config) (extension : Text) : Option Language :=
  let wanted := Language.normalizeExtension extension
  match config.extensionOverrides.find? fun entry =>
      Language.normalizeExtension entry.1.toList == wanted with
  | some entry => some entry.2
  | none => Language.ofExtension? wanted

end Config

end Outline
