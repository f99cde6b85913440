import Outline.Grammar.JavaScript

namespace Outline.Grammar

open Pattern

/-- Comments and strings of Java. -/
def javaLexicon : Lexicon where
  lineComments := [['/', '/']]
  blockComment := some (['/', '*'], ['*', '/'])
  nestedComments := false
  strings :=
    [.quoted ['"', '"', '"'] ['"', '"', '"'] true true,
      .quoted ['"'] ['"'] true false]
  charLiterals := true
  hashAttributes := false

/-- Annotations on the line of a declaration. -/
def javaAnnotations : Pattern :=
  many (lit "@" ++ run1 (.word ||| .char '.') ++ opt (lit "(" ++ run0 (.except ")") ++ lit ")") ++
    gap)

/-- Modifiers before a declaration. -/
def javaModifierWords : Pattern :=
  many (words ["public", "private", "protected", "static", "final", "abstract", "sealed",
    "non-sealed", "strictfp", "default", "synchronized", "native", "transient", "volatile"] ++ gap)

/-- One of the access modifiers, if there is one. -/
def optAccess : Pattern :=
  opt (words ["public", "private", "protected"] ++ gap)

/-- A type with its arguments, arrays included. -/
def javaType : Pattern :=
  .one (.word ||| .char '$') ++ .run (.word ||| .chars "$<>[],.? ") false

/-- Words before a name that are recorded. -/
def javaModifiers : List Text :=
  ["public", "private", "protected", "static", "final", "abstract", "synchronized", "native",
    "default", "sealed", "transient", "volatile", "strictfp"].map String.toList

/-- Words that are never names. -/
def javaReserved : List Text :=
  ["if", "for", "while", "switch", "catch", "return", "new", "throw", "else", "do", "try",
    "synchronized", "super", "this", "case", "yield", "assert"].map String.toList

/-- Rules for declarations, in the order in which they are tried. -/
def javaRules : List Rule :=
  [.marked .package .statement (blanks ++ word "package" ++ named (run1 (.word ||| .char '.'))),
    .marked .interfaceType .block
      (blanks ++ javaAnnotations ++ javaModifierWords ++ lit "@interface" ++ gap ++
        named dollarIdent),
    .marked .classType .block
      (blanks ++ javaAnnotations ++ javaModifierWords ++ word "class" ++ named dollarIdent),
    .marked .interfaceType .block
      (blanks ++ javaAnnotations ++ javaModifierWords ++ word "interface" ++ named dollarIdent),
    .marked .enumType .block
      (blanks ++ javaAnnotations ++ javaModifierWords ++ word "enum" ++ named dollarIdent),
    .marked .classType .block
      (blanks ++ javaAnnotations ++ javaModifierWords ++ word "record" ++ named dollarIdent ++
        blanks ++ opt (lit "<" ++ run0 (.except ">") ++ lit ">") ++ blanks ++ lit "("),
    .marked .constant .statement
      (blanks ++ javaAnnotations ++ optAccess ++ anyOf [word "static" ++ lit "final",
        word "final" ++ lit "static"] ++ gap ++ typed javaType ++ gap ++ named dollarIdent ++
        blanks ++ .one (.chars "=;")),
    .derived .method .block .afterType
      (blanks ++ javaAnnotations ++ javaModifierWords ++ opt (lit "<" ++ run0 (.except ">") ++
        lit ">" ++ gap) ++ typed javaType ++ gap ++ named dollarIdent ++ blanks ++ lit "("),
    .marked .constant .line
      (gap ++ named (.one .upper ++ run0 (.upper ||| .digit ||| .char '_')) ++ blanks ++
        anyOf [lit "(", lit ",", lit ";", lit "\x7b", .assert .textEnd]),
    .marked .method .block
      (gap ++ javaAnnotations ++ optAccess ++ named (.one .upper ++ run0 (.word ||| .char '$')) ++
        blanks ++ lit "("),
    .derived .property .statement .afterType
      (gap ++ javaAnnotations ++ javaModifierWords ++ typed javaType ++ gap ++ named dollarIdent ++
        blanks ++ many (lit "[" ++ blanks ++ lit "]" ++ blanks) ++ .one (.chars "=;,"))]

/-- The grammar of Java. -/
def java : Grammar where
  language := .java
  lexicon := javaLexicon
  style := .braces '{' '}'
  terminator := .semicolon
  rules := javaRules
  docs := ⟨[], some (['/', '*', '*'], ['*', '/']), false, false⟩
  attributes := .atSign
  modifiers := javaModifiers
  reserved := javaReserved
  bracketContinuations := false

end Outline.Grammar
