import Outline.Grammar.Basic

namespace Outline.Grammar

open Pattern

/-- Comments and strings of JavaScript and TypeScript. -/
def scriptLexicon : Lexicon where
  lineComments := [['/', '/']]
  blockComment := some (['/', '*'], ['*', '/'])
  nestedComments := false
  strings :=
    [.quoted ['\u0060'] ['\u0060'] true true,
      .quoted ['"'] ['"'] true false,
      .quoted ['\''] ['\''] true false]
  charLiterals := false
  hashAttributes := false

/-- Documentation of JavaScript and TypeScript. -/
def scriptDocs : DocStyle :=
  ⟨[], some (['/', '*', '*'], ['*', '/']), false, false⟩

/-- An identifier that may hold dollar signs. -/
def dollarIdent : Pattern :=
  .one (.letter ||| .chars "_$") ++ .run (.word ||| .char '$') true

/-- A class. -/
def scriptClass : Pattern :=
  blanks ++ optWord "export" ++ optWord "default" ++ optWord "declare" ++ optWord "abstract" ++
    word "class" ++ named dollarIdent

/-- A function. -/
def scriptFunction : Pattern :=
  blanks ++ optWord "export" ++ optWord "default" ++ optWord "declare" ++ optWord "async" ++
    lit "function" ++ blanks ++ opt (lit "*") ++ blanks ++ named dollarIdent

/-- A function that is assigned to a name. -/
def scriptArrow : Pattern :=
  blanks ++ optWord "export" ++ words ["const", "let", "var"] ++ gap ++ named dollarIdent ++
    blanks ++ opt (lit ":" ++ run1 (.except "=")) ++ lit "=" ++ blanks ++ optWord "async" ++
    anyOf [lit "function" ++ edge, lit "(" ++ run0 (.except "()") ++ lit ")" ++ blanks ++
    opt (lit ":" ++ run1 (.except "=")) ++ lit "=>", dollarIdent ++ blanks ++ lit "=>"]

/-- A member of a class. Its parameters close on the line, and a body or a type follows, which keeps
calls out. -/
def scriptMethod : Pattern :=
  blanks ++ many (words ["static", "async", "get", "set", "public", "private", "protected",
    "readonly", "override", "abstract", "declare"] ++ gap) ++ opt (lit "*") ++ blanks ++
    named (opt (lit "#") ++ dollarIdent) ++ blanks ++ opt (lit "?") ++ blanks ++ opt (lit "<" ++
    run0 (.except ">") ++ lit ">") ++ blanks ++ lit "(" ++ run0 (.except "()") ++ lit ")" ++
    blanks ++ anyOf [lit "\x7b", lit ":" ++ run0 (.except ";\x7b") ++ anyOf [lit "\x7b",
    opt (lit ";") ++ blanks ++ .assert .textEnd]]

/-- A constant. -/
def scriptConstant : Pattern :=
  blanks ++ optWord "export" ++ optWord "declare" ++ word "const" ++ named dollarIdent

/-- A variable. -/
def scriptVariable : Pattern :=
  blanks ++ optWord "export" ++ optWord "declare" ++ words ["let", "var"] ++ gap ++
    named dollarIdent

/-- Words that are never names in JavaScript and TypeScript. -/
def scriptReserved : List Text :=
  ["if", "for", "while", "switch", "catch", "return", "function", "class", "new", "typeof", "else",
    "do", "try", "with", "super", "this", "await", "yield", "delete", "void", "in", "of",
    "instanceof", "throw", "case", "default", "import", "export"].map String.toList

/-- Words before a name that are recorded. -/
def javascriptModifiers : List Text :=
  ["export", "default", "async", "static", "get", "set"].map String.toList

/-- Rules for declarations, in the order in which they are tried. -/
def javascriptRules : List Rule :=
  [.marked .classType .block scriptClass,
    .marked .function .block scriptFunction,
    .marked .function .block scriptArrow,
    .marked .method .block scriptMethod,
    .marked .constant .statement scriptConstant,
    .marked .variable .statement scriptVariable]

/-- The grammar of JavaScript. -/
def javascript : Grammar where
  language := .javascript
  lexicon := scriptLexicon
  style := .braces '{' '}'
  terminator := .newline
  rules := javascriptRules
  docs := scriptDocs
  attributes := .atSign
  modifiers := javascriptModifiers
  reserved := scriptReserved
  bracketContinuations := true

end Outline.Grammar
