import Outline.Grammar.Basic

namespace Outline.Grammar

open Pattern

/-- Comments and strings of Rust. -/
def rustLexicon : Lexicon where
  lineComments := [['/', '/']]
  blockComment := some (['/', '*'], ['*', '/'])
  nestedComments := true
  strings :=
    [.fenced [['b', 'r'], ['c', 'r'], ['r']] 0 false,
      .quoted ['"'] ['"'] true true]
  charLiterals := true
  hashAttributes := false

/-- The start of a line up to the visibility of an item. -/
def visibility : Pattern :=
  blanks ++ opt (lit "pub" ++ opt (blanks ++ lit "(" ++ run0 (.except ")") ++ lit ")") ++ gap)

/-- Words before a name that are recorded. -/
def rustModifiers : List Text :=
  ["pub", "async", "const", "unsafe", "extern", "default", "static", "mut"].map String.toList

/-- Words that are never names. -/
def rustReserved : List Text :=
  ["self", "Self", "super", "crate"].map String.toList

/-- Rules for declarations, in the order in which they are tried. -/
def rustRules : List Rule :=
  [.marked .macroRule .block (blanks ++ lit "macro_rules!" ++ blanks ++ named ident),
    .marked .moduleScope .block (visibility ++ word "mod" ++ named ident),
    .marked .structType .block (visibility ++ word "struct" ++ named ident),
    .marked .structType .block
      (visibility ++ word "union" ++ named ident ++ blanks ++ .one (.chars "<\x7b")),
    .marked .enumType .block (visibility ++ word "enum" ++ named ident),
    .marked .traitType .block
      (visibility ++ optWord "unsafe" ++ optWord "auto" ++ word "trait" ++ named ident),
    .derived .implBlock .block .implHeader
      (blanks ++ optWord "default" ++ optWord "unsafe" ++ lit "impl" ++ edge ++
        .group .body (run0 .any)),
    .marked .function .block
      (visibility ++ optWord "default" ++ optWord "const" ++ optWord "async" ++ optWord "unsafe" ++
        opt (word "extern" ++ opt (lit "\"" ++ run0 (.except "\"") ++ lit "\"" ++ gap)) ++
        word "fn" ++ named ident),
    .marked .typeAlias .statement (visibility ++ word "type" ++ named ident),
    .marked .constant .statement (visibility ++ word "const" ++ named ident ++ blanks ++ lit ":"),
    .marked .variable .statement
      (visibility ++ word "static" ++ optWord "mut" ++ named ident ++ blanks ++ lit ":")]

/-- The grammar of Rust. -/
def rust : Grammar where
  language := .rust
  lexicon := rustLexicon
  style := .braces '{' '}'
  terminator := .semicolon
  rules := rustRules
  docs := ⟨[['/', '/', '/'], ['/', '/', '!']], some (['/', '*', '*'], ['*', '/']), false, false⟩
  attributes := .hash
  modifiers := rustModifiers
  reserved := rustReserved
  bracketContinuations := false

end Outline.Grammar
