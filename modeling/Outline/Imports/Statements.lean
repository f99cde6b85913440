import Outline.Imports.UseTree

namespace Outline.Imports

/-- A path brought into scope, with its visibility. -/
def rustUse : Pattern :=
  .opt (.lit "pub" ++ .opt (.lit "(" ++ .run0 (.except ")") ++ .lit ")") ++ .gap) ++ .word "use" ++
    .item (.run0 .any) ++ .assert .textEnd

/-- A crate that is linked by name. -/
def rustExternCrate : Pattern :=
  .word "extern" ++ .word "crate" ++ .item .ident

/-- Lines that one statement may span after its first. -/
def maxStatementLines : Nat := 200

/-- The paths of a statement, up to its semicolon. -/
def rustPaths (statement : Text) : List Text :=
  let tree := Text.trim (upTo [';'] statement)
  expandTree [':', ':'] [] (Text.stripAll [':', ':'] tree)

/-- Names met in lines, where `open?` is a statement that has no semicolon yet and the number of lines
added to it. -/
def rustNames : (open? : Option (Text × Nat)) → List Text → List Text
  | none, [] => []
  | some (statement, _), [] => rustPaths statement
  | some (statement, added), line :: rest =>
    let joined := statement ++ ' ' :: Text.trim line
    if Text.contains [';'] joined || maxStatementLines ≤ added + 1 then
      rustPaths joined ++ rustNames none rest
    else rustNames (some (joined, added + 1)) rest
  | none, line :: rest =>
    let trimmed := Text.trim line
    if Text.startsWith ['/', '/'] trimmed then rustNames none rest
    else
      match itemAtStart? rustExternCrate trimmed with
      | some name => name :: rustNames none rest
      | none =>
        match itemAtStart? rustUse trimmed with
        | some statement =>
          if Text.contains [';'] statement then rustPaths statement ++ rustNames none rest
          else rustNames (some (statement, 0)) rest
        | none => rustNames none rest

/-- Imports of a Rust text: trees of paths, which may span lines, and linked crates. -/
def rust (t : Text) : List Text :=
  distinct (rustNames none (Text.lines t))

/-- An import with an optional alias on a line of its own in a block. -/
def goItem : Pattern :=
  .opt (.run1 (.word ||| .char '.') ++ .gap) ++ .lit "\"" ++ .item (.run1 (.except "\"")) ++ .lit "\""

/-- A single import. -/
def goSingle : Pattern :=
  .word "import" ++ goItem

/-- What follows the word that begins a block of imports, when a bracket opens it. -/
def goBlock? (trimmed : Text) : Option Text :=
  match Text.strip? "import".toList trimmed with
  | some rest =>
    let list := Text.trimStart rest
    if Text.startsWith ['('] list then some list else none
  | none => none

/-- Names met in lines, inside a block of imports or not. -/
def goNames : (inBlock : Bool) → List Text → List Text
  | _, [] => []
  | true, line :: rest =>
    let trimmed := Text.trim line
    if Text.startsWith [')'] trimmed then goNames false rest
    else (itemAtStart? goItem trimmed).toList ++ goNames true rest
  | false, line :: rest =>
    let trimmed := Text.trim line
    match goBlock? trimmed with
    | some list =>
      (itemAtStart? goItem (Text.trim (list.dropWhile (· == '(')))).toList ++
        goNames (!Text.endsWith [')'] trimmed) rest
    | none => (itemAtStart? goSingle trimmed).toList ++ goNames false rest

/-- Imports of a Go text: single imports and blocks. -/
def go (t : Text) : List Text :=
  distinct (goNames false (Text.lines t))

/-- A list of modules. -/
def pythonImport : Pattern :=
  .word "import" ++ .item (.run1 .any) ++ .assert .textEnd

/-- A module from which names are imported. -/
def pythonFrom : Pattern :=
  .word "from" ++ .item (.run0 (.char '.') ++ .run0 (.word ||| .char '.')) ++ .gap ++ .lit "import" ++
    .edge

/-- The quotes of a string that opens a line and does not close on it. -/
def openTripleQuote? (trimmed : Text) : Option Text :=
  [['\'', '\'', '\''], ['"', '"', '"']].find? fun quote =>
    match Text.strip? quote trimmed with
    | some rest => !Text.contains quote rest
    | none => false

/-- The modules of a list: the first word of each item, without brackets around it. -/
def pythonModules (list : Text) : List Text :=
  (Text.splitWhere (· == ',') (upTo ['#'] list)).map fun entry =>
    let name := (Text.words entry).headD []
    let isBracket := fun c : Char => c == '(' || c == ')'
    ((name.dropWhile isBracket).reverse.dropWhile isBracket).reverse

/-- Names met in lines, where `quote?` is the quote of a string that is still open. -/
def pythonNames : (quote? : Option Text) → List Text → List Text
  | _, [] => []
  | some quote, line :: rest =>
    pythonNames (if Text.contains quote (Text.trim line) then none else some quote) rest
  | none, line :: rest =>
    let trimmed := Text.trim line
    match openTripleQuote? trimmed with
    | some quote => pythonNames (some quote) rest
    | none =>
      if Text.startsWith ['#'] trimmed then pythonNames none rest
      else
        match itemAtStart? pythonFrom trimmed with
        | some name => name :: pythonNames none rest
        | none =>
          match itemAtStart? pythonImport trimmed with
          | some list => pythonModules list ++ pythonNames none rest
          | none => pythonNames none rest

/-- Imports of a Python text. Lines of strings in triple quotes are passed over. -/
def python (t : Text) : List Text :=
  distinct (pythonNames none (Text.lines t))

/-- Lines with those that belong to comments left empty. -/
def blankComments : (inBlock : Bool) → List Text → List Text
  | _, [] => []
  | inBlock, line :: rest =>
    let trimmed := Text.trimStart line
    let opens := Text.startsWith ['/', '*'] trimmed
    let isComment := inBlock || opens || Text.startsWith ['/', '/'] trimmed
    let stays := (inBlock || opens) && !Text.contains ['*', '/'] line
    (if isComment then [] else line) :: blankComments stays rest

/-- An import or export from a module. -/
def scriptFrom : Pattern :=
  .assert .lineStart ++ .blanks ++ .words ["import", "export"] ++ .edge ++ .run (.except "'\";") false ++
    .edge ++ .lit "from" ++ .blanks ++ quotedItem

/-- An import for its effects. -/
def scriptBare : Pattern :=
  .assert .lineStart ++ .blanks ++ .lit "import" ++ .blanks ++ quotedItem

/-- A call that loads a module. -/
def scriptCall (function : String) : Pattern :=
  .edge ++ .lit function ++ .blanks ++ .lit "(" ++ .blanks ++ quotedItem ++ .blanks ++ .lit ")"

/-- Imports of a JavaScript or TypeScript text, by their place in it. -/
def script (t : Text) : List Text :=
  let code := (blankComments false (Text.lines t)).flatMap fun line => line ++ ['\n']
  distinct (inOrder ([scriptFrom, scriptBare, scriptCall "require", scriptCall "import"].flatMap
    fun p => itemsIn p code))

end Outline.Imports
