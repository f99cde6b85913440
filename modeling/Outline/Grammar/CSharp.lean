import Outline.Grammar.Basic

namespace Outline.Grammar

open Pattern

/-- Comments and strings of C#. -/
def csharpLexicon : Lexicon where
  lineComments := [['/', '/']]
  blockComment := some (['/', '*'], ['*', '/'])
  nestedComments := false
  strings :=
    [.quoted ['"', '"', '"'] ['"', '"', '"'] false true,
      .quoted ['$', '@', '"'] ['"'] false true,
      .quoted ['@', '$', '"'] ['"'] false true,
      .quoted ['@', '"'] ['"'] false true,
      .quoted ['"'] ['"'] true false]
  charLiterals := true
  hashAttributes := false

/-- Attributes on the line of a declaration. -/
def csharpAttributes : Pattern :=
  many (lit "[" ++ run0 (.except "]") ++ lit "]" ++ blanks)

/-- Modifiers before a declaration. -/
def csharpModifierWords : Pattern :=
  many (words ["public", "private", "protected", "internal", "static", "readonly", "abstract",
    "virtual", "override", "sealed", "async", "partial", "extern", "unsafe", "new", "volatile",
    "required", "file"] ++ gap)

/-- A type with its arguments, arrays included. -/
def csharpType : Pattern :=
  run1 (.word ||| .chars "<>[],.?") ++ few (blanks ++ run1 (.word ||| .chars "<>[],.?"))

/-- Words before a name that are recorded. -/
def csharpModifiers : List Text :=
  ["public", "private", "protected", "internal", "static", "readonly", "const", "abstract",
    "virtual", "override", "sealed", "async", "partial", "extern", "unsafe", "new", "volatile",
    "required", "file"].map String.toList

/-- Words that are never names. -/
def csharpReserved : List Text :=
  ["if", "for", "foreach", "while", "switch", "catch", "return", "new", "throw", "else", "do",
    "try", "using", "lock", "fixed", "base", "this", "get", "set", "init", "add", "remove", "where",
    "when", "case"].map String.toList

/-- Rules for declarations, in the order in which they are tried. -/
def csharpRules : List Rule :=
  [.marked .namespaceScope .block
      (blanks ++ word "namespace" ++ named (run1 (.word ||| .char '.'))),
    .marked .classType .block
      (blanks ++ csharpAttributes ++ csharpModifierWords ++ word "class" ++ named ident),
    .marked .structType .block
      (blanks ++ csharpAttributes ++ csharpModifierWords ++ optWord "ref" ++ optWord "record" ++
        word "struct" ++ named ident),
    .marked .interfaceType .block
      (blanks ++ csharpAttributes ++ csharpModifierWords ++ word "interface" ++ named ident),
    .marked .enumType .block
      (blanks ++ csharpAttributes ++ csharpModifierWords ++ word "enum" ++ named ident),
    .marked .classType .block
      (blanks ++ csharpAttributes ++ csharpModifierWords ++ word "record" ++ optWord "class" ++
        named ident),
    .marked .constant .statement
      (blanks ++ csharpAttributes ++ csharpModifierWords ++ word "const" ++ typed csharpType ++
        gap ++ named ident ++ blanks ++ lit "="),
    .derived .method .block .afterType
      (blanks ++ csharpAttributes ++ csharpModifierWords ++ typed csharpType ++ gap ++
        named ident ++ blanks ++ opt (lit "<" ++ run0 (.except ">") ++ lit ">") ++ blanks ++
        lit "("),
    .marked .method .block
      (gap ++ csharpAttributes ++ csharpModifierWords ++ named (opt (lit "~") ++ .one .upper ++
        run0 .word) ++ blanks ++ lit "("),
    .derived .property .block .afterType
      (blanks ++ csharpAttributes ++ csharpModifierWords ++ typed csharpType ++ gap ++
        named ident ++ blanks ++ anyOf [lit "\x7b", lit "=>", .assert .textEnd]),
    .derived .variable .statement .afterType
      (blanks ++ csharpAttributes ++ csharpModifierWords ++ typed csharpType ++ gap ++
        named ident ++ blanks ++ .one (.chars "=;,"))]

/-- The grammar of C#. -/
def csharp : Grammar where
  language := .csharp
  lexicon := csharpLexicon
  style := .braces '{' '}'
  terminator := .semicolon
  rules := csharpRules
  docs := ⟨[['/', '/', '/']], some (['/', '*', '*'], ['*', '/']), false, false⟩
  attributes := .bracket
  modifiers := csharpModifiers
  reserved := csharpReserved
  bracketContinuations := false

end Outline.Grammar
