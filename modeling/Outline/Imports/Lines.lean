import Outline.Imports.UseTree

namespace Outline.Imports

/-- Names that each line contributes by itself. -/
def byLine (names : Text → List Text) (t : Text) : List Text :=
  distinct ((Text.lines t).flatMap names)

/-- Java: packages and static members. -/
def javaImport : Pattern :=
  .blanks ++ .word "import" ++ .optWord "static" ++
    .item (.run1 (.word ||| .char '.') ++ .opt (.lit ".*")) ++ .blanks ++ .lit ";"

/-- C#: namespaces, also global, static or under an alias. -/
def csharpUsing : Pattern :=
  .blanks ++ .optWord "global" ++ .word "using" ++ .optWord "static" ++
    .opt (.run1 .word ++ .blanks ++ .lit "=" ++ .blanks) ++ .item (.run1 (.word ||| .char '.')) ++
    .blanks ++ .lit ";"

/-- C and C++: included files. -/
def cInclude : Pattern :=
  .blanks ++ .lit "#" ++ .blanks ++ .lit "include" ++ .blanks ++ .one (.chars "<\"") ++
    .item (.run1 (.except ">\"")) ++ .one (.chars ">\"")

/-- Swift: modules, also with the kind of what is imported. -/
def swiftImport : Pattern :=
  .blanks ++ .many (.lit "@" ++ .run1 .word ++ .gap) ++ .word "import" ++
    .opt (.words ["typealias", "struct", "class", "enum", "protocol", "let", "var", "func"] ++ .gap) ++
    .item (.run1 (.word ||| .char '.'))

/-- PHP: names brought into scope, perhaps in groups. -/
def phpUse : Pattern :=
  .word "use" ++ .opt (.anyOf [.word "function", .word "const"]) ++ .item (.run1 (.except ";")) ++
    .lit ";"

/-- PHP: files that are loaded. -/
def phpRequire : Pattern :=
  .edge ++ .words ["require", "include"] ++ .opt (.lit "_once") ++ .blanks ++
    .opt (.lit "(") ++ .blanks ++
    quotedItem

/-- PHP: the names on a line. A line that opens with a comment has none, and only a use at the start of
a line counts. -/
def phpNames (line : Text) : List Text :=
  let trimmed := Text.trimStart line
  if Text.startsWith ['/', '/'] trimmed || Text.startsWith ['#'] trimmed ||
      Text.startsWith ['*'] trimmed then []
  else
    let used :=
      match itemAtStart? phpUse line with
      | some list =>
        (splitTopLevel 0 list).flatMap fun piece =>
          expandTree ['\\'] [] (Text.stripAll ['\\'] (Text.trim piece))
      | none => []
    used ++ (itemsIn phpRequire line).map Prod.snd

/-- Julia: a list of modules, or a module and names of it. -/
def juliaUsing : Pattern :=
  .blanks ++ .words ["using", "import"] ++ .gap ++ .item (.run1 .any) ++ .assert .textEnd

/-- Julia: the names on a line. -/
def juliaNames (line : Text) : List Text :=
  match itemAtStart? juliaUsing line with
  | none => []
  | some found =>
    let list := upTo ['#'] found
    match Text.cut? [':'] list with
    | some (base, _) => [base]
    | none => (Text.splitWhere (· == ',') list).map (upTo " as ".toList)

/-- R: packages. -/
def rLibrary : Pattern :=
  .edge ++ .words ["library", "require", "requireNamespace"] ++ .blanks ++ .lit "(" ++ .blanks ++
    .opt (.one (.chars "'\"")) ++ .item (.run1 (.word ||| .char '.')) ++ .opt (.one (.chars "'\""))

/-- R: files that are run. -/
def rSource : Pattern :=
  .edge ++ .lit "source" ++ .blanks ++ .lit "(" ++ .blanks ++ quotedItem

/-- R: the names on a line, by their place in it. -/
def rNames (line : Text) : List Text :=
  let code := upTo ['#'] line
  inOrder (itemsIn rLibrary code ++ itemsIn rSource code)

/-- Imports by a pattern that applies once a line. -/
def byPattern (p : Pattern) (t : Text) : List Text :=
  byLine (fun line => (itemAtStart? p line).toList) t

end Outline.Imports
