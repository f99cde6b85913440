import Outline.FileOutline.Basic
import Outline.Grammar.All
import Outline.Imports
import Outline.Scan

namespace Outline

/-- What a scanner finds in a text. -/
structure Findings where
  declarations : List Declaration
  /-- Modules referred to, each once, where it was met first. -/
  imports : List String
  /-- Ceilings that were hit. -/
  warnings : List String

/-- Something that outlines texts of one language. Each part of its work may break down with a message; a
scanner that cannot even be made is one that breaks down on every text. -/
structure Scanner where
  /-- The language that outlines are marked with. -/
  language : Language
  /-- The declarations of a text and the ceilings that were hit. -/
  scan : Text → Except String (List Declaration × List String)
  /-- The modules that a text refers to. -/
  imports : Text → Except String (List String)

namespace Scanner

/-- The scanner of a language that works by its grammar. It breaks down only where a sum is no word. -/
def ofGrammar (limits : Limits) (language : Language) : Scanner where
  language := language
  scan := fun content =>
    match language.grammar.scan? limits content with
    | some found => .ok found
    | none => .error overflowMessage
  imports := fun content => .ok ((importsOf language content).map String.ofList)

/-- All that a scanner finds in a text: its declarations, and then its imports if they are asked for. -/
def parse (scanner : Scanner) (withImports : Bool) (content : Text) : Except String Findings :=
  match scanner.scan content with
  | .error message => .error message
  | .ok (declarations, warnings) =>
    if withImports then
      match scanner.imports content with
      | .error message => .error message
      | .ok names => .ok ⟨declarations, names, warnings⟩
    else .ok ⟨declarations, [], warnings⟩

/-- Outlines the text of a file, with or without its imports. -/
def outline (scanner : Scanner) (path : String) (withImports : Bool) (content : Text) :
    Except String FileOutline :=
  match scanner.parse withImports content with
  | .error message => .error message
  | .ok found =>
    .ok ⟨path, scanner.language, content, found.declarations, found.imports, none, found.warnings⟩

end Scanner

end Outline
