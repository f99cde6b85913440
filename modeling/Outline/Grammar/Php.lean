import Outline.Grammar.Basic

namespace Outline.Grammar

open Pattern

/-- Comments and strings of PHP. -/
def phpLexicon : Lexicon where
  lineComments := [['/', '/'], ['#']]
  blockComment := some (['/', '*'], ['*', '/'])
  nestedComments := false
  strings :=
    [.quoted ['"'] ['"'] true true,
      .quoted ['\''] ['\''] true true]
  charLiterals := false
  hashAttributes := true

/-- Words before a name that are recorded. -/
def phpModifiers : List Text :=
  ["public", "private", "protected", "static", "abstract", "final", "readonly"].map String.toList

/-- Words that are never names. -/
def phpReserved : List Text :=
  ["if", "for", "foreach", "while", "switch", "return", "new", "echo", "print", "list", "array",
    "isset", "unset", "empty", "fn"].map String.toList

/-- Rules for declarations, in the order in which they are tried. -/
def phpRules : List Rule :=
  [.marked .namespaceScope .block
      (blanks ++ word "namespace" ++ named (run1 (.word ||| .char '\\'))),
    .marked .classType .block
      (blanks ++ many (words ["abstract", "final", "readonly"] ++ gap) ++ word "class" ++
        named ident),
    .marked .interfaceType .block (blanks ++ word "interface" ++ named ident),
    .marked .traitType .block (blanks ++ word "trait" ++ named ident),
    .marked .enumType .block (blanks ++ word "enum" ++ named ident),
    .marked .method .block
      (blanks ++ many1 (words ["public", "private", "protected", "static", "abstract", "final"] ++
        gap) ++ word "function" ++ opt (lit "&") ++ named ident),
    .marked .function .block (blanks ++ word "function" ++ opt (lit "&") ++ named ident),
    .marked .constant .statement
      (blanks ++ many (words ["public", "private", "protected", "final"] ++ gap) ++ word "const" ++
        opt (run1 (.word ||| .char '?') ++ gap) ++ named ident ++ blanks ++ lit "="),
    .marked .constant .statement
      (blanks ++ lit "define" ++ blanks ++ lit "(" ++ blanks ++ .one (.chars "'\"") ++
        named ident ++ .one (.chars "'\"")),
    .marked .property .statement
      (blanks ++ many1 (words ["public", "private", "protected", "static", "readonly", "var"] ++
        gap) ++ opt (opt (lit "?") ++ run1 (.word ||| .chars "\\|") ++ gap) ++ lit "$" ++
        named ident)]

/-- The grammar of PHP. -/
def php : Grammar where
  language := .php
  lexicon := phpLexicon
  style := .braces '{' '}'
  terminator := .semicolon
  rules := phpRules
  docs := ⟨[], some (['/', '*', '*'], ['*', '/']), false, false⟩
  attributes := .hash
  modifiers := phpModifiers
  reserved := phpReserved
  bracketContinuations := false

end Outline.Grammar
