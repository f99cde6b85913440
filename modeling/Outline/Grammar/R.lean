import Outline.Grammar.Basic

namespace Outline.Grammar

open Pattern

/-- Comments and strings of R. -/
def rLexicon : Lexicon where
  lineComments := [['#']]
  blockComment := none
  nestedComments := false
  strings :=
    [.quoted ['"'] ['"'] true true,
      .quoted ['\''] ['\''] true true,
      .quoted ['\u0060'] ['\u0060'] false false]
  charLiterals := false
  hashAttributes := false

/-- An identifier, in which dots are ordinary characters. -/
def rIdent : Pattern :=
  .one (.letter ||| .char '.') ++ run0 (.word ||| .char '.')

/-- Words before a name that are recorded. -/
def rModifiers : List Text :=
  [].map String.toList

/-- Words that are never names. -/
def rReserved : List Text :=
  ["if", "else", "repeat", "while", "function", "for", "next", "break", "in", "TRUE", "FALSE",
    "NULL", "Inf", "NaN", "NA"].map String.toList

/-- Rules for declarations, in the order in which they are tried. -/
def rRules : List Rule :=
  [.marked .function .block
      (blanks ++ named (rIdent) ++ blanks ++ anyOf [lit "<" ++ opt (lit "<") ++ lit "-", lit "="] ++
        blanks ++ words ["function", "\\"] ++ blanks ++ lit "("),
    .marked .classType .statement
      (blanks ++ opt (rIdent ++ blanks ++ words ["<-", "="] ++ blanks) ++ lit "set" ++
        opt (lit "Ref") ++ lit "Class" ++ blanks ++ lit "(" ++ blanks ++ opt (lit "Class" ++
        blanks ++ lit "=" ++ blanks) ++ .one (.chars "\"'") ++ named (rIdent) ++
        .one (.chars "\"'")),
    .marked .classType .statement
      (named (rIdent) ++ blanks ++ words ["<-", "="] ++ blanks ++ opt (lit "R6::") ++
        lit "R6Class" ++ blanks ++ lit "("),
    .marked .function .statement
      (blanks ++ lit "setGeneric" ++ blanks ++ lit "(" ++ blanks ++ opt (lit "name" ++ blanks ++
        lit "=" ++ blanks) ++ .one (.chars "\"'") ++ named (rIdent) ++ .one (.chars "\"'")),
    .marked .method .statement
      (blanks ++ lit "setMethod" ++ blanks ++ lit "(" ++ blanks ++ opt (lit "f" ++ blanks ++
        lit "=" ++ blanks) ++ .one (.chars "\"'") ++ named (rIdent) ++ .one (.chars "\"'")),
    .marked .constant .statement
      (named (.one .upper ++ run0 (.upper ||| .digit ||| .chars "_.")) ++ blanks ++
        anyOf [lit "<" ++ opt (lit "<") ++ lit "-", lit "=" ++ .one (.except "=")]),
    .marked .variable .statement
      (named (rIdent) ++ blanks ++ anyOf [lit "<" ++ opt (lit "<") ++ lit "-", lit "=" ++
        .one (.except "=")])]

/-- The grammar of R. -/
def r : Grammar where
  language := .r
  lexicon := rLexicon
  style := .braces '{' '}'
  terminator := .newline
  rules := rRules
  docs := ⟨[['#', '\'']], none, false, false⟩
  attributes := .absent
  modifiers := rModifiers
  reserved := rReserved
  bracketContinuations := true

end Outline.Grammar
