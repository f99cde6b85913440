import Outline.Grammar.C

namespace Outline.Grammar

open Pattern

/-- Comments and strings of C++. -/
def cppLexicon : Lexicon where
  lineComments := [['/', '/']]
  blockComment := some (['/', '*'], ['*', '/'])
  nestedComments := false
  strings :=
    [.tagged,
      .quoted ['"'] ['"'] true false]
  charLiterals := true
  hashAttributes := false

/-- Attributes before a declaration. -/
def cppAttributes : Pattern :=
  many (lit "[[" ++ run0 (.except "]") ++ lit "]]" ++ blanks)

/-- A type, perhaps qualified and with arguments, and the marks of pointers and references after it. -/
def cppType : Pattern :=
  .one (.letter ||| .char '_') ++ run0 (.word ||| .char ':') ++ opt (lit "<" ++
    run0 (.except "()") ++ lit ">") ++ run1 (.blank ||| .chars "*&")

/-- The parameters of a template, if there are any. -/
def templateHead : Pattern :=
  opt (lit "template" ++ blanks ++ lit "<" ++ run0 .any ++ lit ">" ++ blanks)

/-- Words before a name that are recorded. -/
def cppModifiers : List Text :=
  ["static", "inline", "extern", "const", "volatile", "virtual", "explicit", "constexpr",
    "consteval", "friend", "mutable"].map String.toList

/-- Rules for declarations, in the order in which they are tried. -/
def cppRules : List Rule :=
  [.marked .macroRule .line macroDefinition,
    .marked .namespaceScope .block
      (blanks ++ optWord "inline" ++ word "namespace" ++ named (.one (.letter ||| .char '_') ++
        run0 (.word ||| .char ':'))),
    .marked .classType .block
      (blanks ++ templateHead ++ word "class" ++ opt (lit "alignas(" ++ run0 (.except ")") ++
        lit ")" ++ gap) ++ named ident ++ opt (gap ++ lit "final") ++ blanks ++
        anyOf [.one (.chars ":\x7b"), .assert .textEnd]),
    .marked .structType .block
      (blanks ++ templateHead ++ optWord "typedef" ++ word "struct" ++ opt (lit "alignas(" ++
        run0 (.except ")") ++ lit ")" ++ gap) ++ named ident ++ opt (gap ++ lit "final") ++
        blanks ++ anyOf [.one (.chars ":\x7b"), .assert .textEnd]),
    .marked .structType .block
      (blanks ++ optWord "typedef" ++ word "union" ++ named ident ++ blanks ++ anyOf [lit "\x7b",
        .assert .textEnd]),
    .marked .enumType .block
      (blanks ++ optWord "typedef" ++ word "enum" ++ opt (anyOf [word "class", word "struct"]) ++
        named ident ++ blanks ++ opt (lit ":" ++ blanks ++ run1 (.word ||| .char ':') ++ blanks) ++
        anyOf [lit "\x7b", .assert .textEnd]),
    .derived .typeAlias .statement .typeDefinition typeDefinition,
    .marked .typeAlias .statement
      (blanks ++ templateHead ++ word "using" ++ named ident ++ blanks ++ lit "="),
    .derived .method .block .afterType
      (blanks ++ cppAttributes ++ typed (few cppType) ++ named (many1 (ident ++ opt (lit "<" ++
        run0 (.except "()") ++ lit ">") ++ lit "::") ++ opt (lit "~") ++ ident) ++ blanks ++
        lit "("),
    .derived .function .block .afterType
      (blanks ++ templateHead ++ cppAttributes ++ typed (few1 cppType) ++
        named (anyOf [opt (lit "~") ++ ident, lit "operator" ++ blanks ++
        run1 (.compl (.blank ||| .chars "("))]) ++ blanks ++ lit "("),
    .derived .function .block .member
      (gap ++ many (words ["explicit", "virtual", "inline", "constexpr"] ++ gap) ++
        named (opt (lit "~") ++ ident) ++ blanks ++ lit "("),
    .derived .constant .statement .afterType
      (blanks ++ typed (few cppType ++ words ["const", "constexpr"] ++ edge ++
        run1 (.blank ||| .chars "*&") ++ few cppType) ++ named ident ++ blanks ++ dimensions ++
        .one (.chars "=\x7b")),
    .derived .variable .statement .afterType
      (blanks ++ typed (few1 cppType) ++ named ident ++ blanks ++ dimensions ++
        .one (.chars "=;,\x7b"))]

/-- The grammar of C++. -/
def cpp : Grammar where
  language := .cpp
  lexicon := cppLexicon
  style := .braces '{' '}'
  terminator := .semicolon
  rules := cppRules
  docs := cDocs
  attributes := .bracket
  modifiers := cppModifiers
  reserved := cReserved
  bracketContinuations := false

end Outline.Grammar
