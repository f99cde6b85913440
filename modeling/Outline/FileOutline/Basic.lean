import Outline.Declaration.Basic
import Outline.Language

namespace Outline

/-- All that is known of one outlined file. -/
structure FileOutline where
  /-- The path by which the file was given. -/
  path : String
  /-- The language as which it was read. -/
  language : Language
  /-- The text that was read. -/
  content : Text
  declarations : List Declaration
  /-- Modules referred to, each once, where it was met first. -/
  imports : List String
  /-- An error reported along with the outline. -/
  error : Option String
  /-- Ceilings that were hit. -/
  warnings : List String
deriving Inhabited

namespace FileOutline

/-- How many declarations the file holds, nested ones included. -/
def total (file : FileOutline) : Nat :=
  Declaration.totalAll file.declarations

/-- How deep the declarations nest. -/
def depth (file : FileOutline) : Nat :=
  Declaration.depthAll file.declarations

end FileOutline

end Outline
