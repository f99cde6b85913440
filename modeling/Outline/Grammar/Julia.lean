import Outline.Grammar.Basic

namespace Outline.Grammar

open Pattern

/-- Comments and strings of Julia. -/
def juliaLexicon : Lexicon where
  lineComments := [['#']]
  blockComment := some (['#', '='], ['=', '#'])
  nestedComments := true
  strings :=
    [.quoted ['"', '"', '"'] ['"', '"', '"'] true true,
      .quoted ['"'] ['"'] true true]
  charLiterals := true
  hashAttributes := false

/-- Calls of macros on the line of a declaration. -/
def macroCalls : Pattern :=
  many (lit "@" ++ run1 (.word ||| .char '.') ++ gap)

/-- Words before a name that are recorded. -/
def juliaModifiers : List Text :=
  ["mutable", "abstract", "primitive", "baremodule"].map String.toList

/-- Words that are never names. -/
def juliaReserved : List Text :=
  ["end", "if", "elseif", "else", "for", "while", "begin", "let", "return", "try", "catch", "do",
    "quote", "function", "macro", "struct", "module"].map String.toList

/-- Rules for declarations, in the order in which they are tried. -/
def juliaRules : List Rule :=
  [.marked .moduleScope .block (blanks ++ opt (lit "bare") ++ word "module" ++ named ident),
    .marked .structType .block
      (blanks ++ macroCalls ++ optWord "mutable" ++ word "struct" ++ named ident),
    .marked .typeAlias .block (blanks ++ word "abstract" ++ word "type" ++ named ident),
    .marked .typeAlias .block (blanks ++ word "primitive" ++ word "type" ++ named ident),
    .marked .macroRule .block (blanks ++ word "macro" ++ named ident),
    .marked .function .block
      (blanks ++ macroCalls ++ word "function" ++ named (.one (.letter ||| .char '_') ++
        run0 (.word ||| .char '.') ++ opt (lit "!"))),
    .marked .function .line
      (blanks ++ macroCalls ++ named (.one (.letter ||| .char '_') ++ run0 (.word ||| .char '.') ++
        opt (lit "!")) ++ blanks ++ opt (lit "\x7b" ++ run0 (.except "\x7d") ++ lit "\x7d") ++
        lit "(" ++ run0 (.except "=") ++ lit ")" ++ blanks ++ opt (lit "::" ++ blanks ++
        run1 (.compl .blank) ++ blanks) ++ opt (word "where" ++ run0 .any) ++ lit "=" ++
        .one (.except "=>")),
    .marked .constant .statement (blanks ++ word "const" ++ named ident)]

/-- The grammar of Julia. -/
def julia : Grammar where
  language := .julia
  lexicon := juliaLexicon
  style := .keyword
  terminator := .newline
  rules := juliaRules
  docs := ⟨[], none, false, true⟩
  attributes := .atSign
  modifiers := juliaModifiers
  reserved := juliaReserved
  bracketContinuations := true

end Outline.Grammar
