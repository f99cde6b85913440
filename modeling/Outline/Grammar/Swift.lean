import Outline.Grammar.Basic

namespace Outline.Grammar

open Pattern

/-- Comments and strings of Swift. -/
def swiftLexicon : Lexicon where
  lineComments := [['/', '/']]
  blockComment := some (['/', '*'], ['*', '/'])
  nestedComments := true
  strings :=
    [.fenced [[]] 1 true,
      .quoted ['"', '"', '"'] ['"', '"', '"'] true true,
      .quoted ['"'] ['"'] true false]
  charLiterals := false
  hashAttributes := false

/-- Attributes and modifiers before a declaration. -/
def swiftLead : Pattern :=
  blanks ++ many (lit "@" ++ run1 .word ++ opt (lit "(" ++ run0 (.except ")") ++ lit ")") ++ gap) ++
    many (words ["public", "private", "fileprivate", "internal", "open", "static", "class", "final",
    "override", "mutating", "nonmutating", "lazy", "weak", "unowned", "convenience", "required",
    "indirect", "nonisolated", "dynamic"] ++ opt (lit "(set)") ++ gap)

/-- Words before a name that are recorded. -/
def swiftModifiers : List Text :=
  ["public", "private", "fileprivate", "internal", "open", "static", "class", "final", "override",
    "mutating", "nonmutating", "lazy", "weak", "unowned", "convenience", "required", "indirect",
    "nonisolated", "dynamic"].map String.toList

/-- Words that are never names. -/
def swiftReserved : List Text :=
  ["func", "var", "let", "if", "guard", "for", "while", "switch", "return", "case", "self", "Self",
    "super"].map String.toList

/-- Rules for declarations, in the order in which they are tried. -/
def swiftRules : List Rule :=
  [.marked .classType .block (swiftLead ++ word "class" ++ named ident),
    .marked .classType .block (swiftLead ++ word "actor" ++ named ident),
    .marked .structType .block (swiftLead ++ word "struct" ++ named ident),
    .marked .enumType .block (swiftLead ++ word "enum" ++ named ident),
    .marked .interfaceType .block (swiftLead ++ word "protocol" ++ named ident),
    .marked .implBlock .block
      (swiftLead ++ word "extension" ++ named (.one (.letter ||| .char '_') ++
        run0 (.word ||| .char '.'))),
    .marked .function .block
      (swiftLead ++ word "func" ++ named (anyOf [ident,
        run1 (.compl (.word ||| .blank ||| .chars "(<"))])),
    .marked .method .block
      (swiftLead ++ named (words ["init", "deinit"]) ++ opt (.one (.chars "?!")) ++ blanks ++
        opt (lit "<" ++ run0 (.except ">") ++ lit ">") ++ blanks ++ .one (.chars "(\x7b")),
    .marked .method .block (swiftLead ++ named (lit "subscript") ++ blanks ++ .one (.chars "(<")),
    .marked .typeAlias .statement (swiftLead ++ word "typealias" ++ named ident),
    .marked .constant .line (blanks ++ optWord "indirect" ++ word "case" ++ named ident),
    .marked .constant .statement (swiftLead ++ word "let" ++ named ident),
    .marked .variable .statement (swiftLead ++ word "var" ++ named ident)]

/-- The grammar of Swift. -/
def swift : Grammar where
  language := .swift
  lexicon := swiftLexicon
  style := .braces '{' '}'
  terminator := .newline
  rules := swiftRules
  docs := ⟨[['/', '/', '/']], some (['/', '*', '*'], ['*', '/']), false, false⟩
  attributes := .atSign
  modifiers := swiftModifiers
  reserved := swiftReserved
  bracketContinuations := true

end Outline.Grammar
