import Outline.Imports.Lines
import Outline.Imports.Statements
import Outline.Language

namespace Outline

/-- The modules, packages and files that a text refers to, each once, where it was met first. -/
def importsOf : Language → Text → List Text
  | .python => Imports.python
  | .rust => Imports.rust
  | .go => Imports.go
  | .javascript | .typescript => Imports.script
  | .c | .cpp => Imports.byPattern Imports.cInclude
  | .java => Imports.byPattern Imports.javaImport
  | .csharp => Imports.byPattern Imports.csharpUsing
  | .php => Imports.byLine Imports.phpNames
  | .swift => Imports.byPattern Imports.swiftImport
  | .julia => Imports.byLine Imports.juliaNames
  | .r => Imports.byLine Imports.rNames

end Outline
