import Outline.Grammar.Basic

namespace Outline.Grammar

open Pattern

/-- Comments and strings of Go. -/
def goLexicon : Lexicon where
  lineComments := [['/', '/']]
  blockComment := some (['/', '*'], ['*', '/'])
  nestedComments := false
  strings :=
    [.quoted ['\u0060'] ['\u0060'] false true,
      .quoted ['"'] ['"'] true false]
  charLiterals := true
  hashAttributes := false

/-- Words before a name that are recorded. -/
def goModifiers : List Text :=
  [].map String.toList

/-- Words that are never names. -/
def goReserved : List Text :=
  ["break", "case", "chan", "const", "continue", "default", "defer", "else", "fallthrough", "for",
    "func", "go", "goto", "if", "import", "interface", "map", "package", "range", "return",
    "select", "struct", "switch", "type", "var", "_"].map String.toList

/-- Rules for declarations, in the order in which they are tried. -/
def goRules : List Rule :=
  [.marked .method .block
      (lit "func" ++ blanks ++ lit "(" ++ run0 (.except ")") ++ lit ")" ++ blanks ++ named ident),
    .marked .function .block (word "func" ++ named ident),
    .marked .structType .block
      (blanks ++ word "type" ++ named ident ++ opt (lit "[" ++ run0 (.except "]") ++ lit "]") ++
        gap ++ lit "struct" ++ edge),
    .marked .interfaceType .block
      (blanks ++ word "type" ++ named ident ++ opt (lit "[" ++ run0 (.except "]") ++ lit "]") ++
        gap ++ lit "interface" ++ edge),
    .marked .typeAlias .statement (blanks ++ word "type" ++ named ident),
    .marked .constant .statement (blanks ++ word "const" ++ named ident),
    .marked .variable .statement (blanks ++ word "var" ++ named ident),
    .marked .package .line (word "package" ++ named ident),
    .marked .method .line (gap ++ named ident ++ blanks ++ lit "(")]

/-- The grammar of Go. -/
def go : Grammar where
  language := .go
  lexicon := goLexicon
  style := .braces '{' '}'
  terminator := .newline
  rules := goRules
  docs := ⟨[['/', '/']], none, false, false⟩
  attributes := .absent
  modifiers := goModifiers
  reserved := goReserved
  bracketContinuations := true

end Outline.Grammar
