import Outline.Grammar.Basic

namespace Outline.Grammar

open Pattern

/-- Comments and strings of C. -/
def cLexicon : Lexicon where
  lineComments := [['/', '/']]
  blockComment := some (['/', '*'], ['*', '/'])
  nestedComments := false
  strings :=
    [.quoted ['"'] ['"'] true false]
  charLiterals := true
  hashAttributes := false

/-- Documentation of C and C++. -/
def cDocs : DocStyle :=
  ⟨[['/', '/', '/']], some (['/', '*', '*'], ['*', '/']), false, false⟩

/-- A macro definition. -/
def macroDefinition : Pattern :=
  blanks ++ lit "#" ++ blanks ++ word "define" ++ named ident

/-- A type definition that ends on its line. -/
def typeDefinition : Pattern :=
  blanks ++ lit "typedef" ++ edge ++ .group .body (run0 (.except ";\x7b")) ++ lit ";"

/-- A word of a type, with the white space and pointer marks after it. -/
def cTypeWord : Pattern :=
  ident ++ run1 (.blank ||| .char '*')

/-- The dimensions of an array. -/
def dimensions : Pattern :=
  many (lit "[" ++ run0 (.except "]") ++ lit "]" ++ blanks)

/-- Words that are never names in C and C++. -/
def cReserved : List Text :=
  ["if", "while", "for", "switch", "return", "sizeof", "do", "else", "case", "goto", "break",
    "continue", "default", "typedef", "struct", "union", "enum"].map String.toList

/-- Words before a name that are recorded. -/
def cModifiers : List Text :=
  ["static", "inline", "extern", "const", "volatile", "register"].map String.toList

/-- Rules for declarations, in the order in which they are tried. -/
def cRules : List Rule :=
  [.marked .macroRule .line macroDefinition,
    .marked .structType .block
      (blanks ++ optWord "typedef" ++ word "struct" ++ named ident ++ blanks ++ anyOf [lit "\x7b",
        .assert .textEnd]),
    .marked .structType .block
      (blanks ++ optWord "typedef" ++ word "union" ++ named ident ++ blanks ++ anyOf [lit "\x7b",
        .assert .textEnd]),
    .marked .enumType .block
      (blanks ++ optWord "typedef" ++ word "enum" ++ named ident ++ blanks ++ anyOf [lit "\x7b",
        .assert .textEnd]),
    .derived .typeAlias .statement .typeDefinition typeDefinition,
    .derived .function .block .afterType
      (blanks ++ typed (few1 cTypeWord) ++ named ident ++ blanks ++ lit "("),
    .derived .constant .statement .afterType
      (blanks ++ typed (few cTypeWord ++ lit "const" ++ edge ++ run1 (.blank ||| .char '*') ++
        few cTypeWord) ++ named ident ++ blanks ++ dimensions ++ lit "="),
    .derived .variable .statement .afterType
      (blanks ++ typed (few1 cTypeWord) ++ named ident ++ blanks ++ dimensions ++
        .one (.chars "=;,"))]

/-- The grammar of C. -/
def c : Grammar where
  language := .c
  lexicon := cLexicon
  style := .braces '{' '}'
  terminator := .semicolon
  rules := cRules
  docs := cDocs
  attributes := .absent
  modifiers := cModifiers
  reserved := cReserved
  bracketContinuations := false

end Outline.Grammar
