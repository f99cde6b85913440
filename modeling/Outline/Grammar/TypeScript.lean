import Outline.Grammar.JavaScript

namespace Outline.Grammar

open Pattern

/-- Words before a name that are recorded. -/
def typescriptModifiers : List Text :=
  ["export", "default", "async", "static", "get", "set", "public", "private", "protected",
    "readonly", "abstract", "declare", "override", "const"].map String.toList

/-- Rules for declarations, in the order in which they are tried. -/
def typescriptRules : List Rule :=
  [.marked .classType .block scriptClass,
    .marked .interfaceType .block
      (blanks ++ optWord "export" ++ optWord "default" ++ optWord "declare" ++ word "interface" ++
        named dollarIdent),
    .marked .enumType .block
      (blanks ++ optWord "export" ++ optWord "declare" ++ optWord "const" ++ word "enum" ++
        named dollarIdent),
    .marked .namespaceScope .block
      (blanks ++ optWord "export" ++ optWord "declare" ++ words ["namespace", "module"] ++ gap ++
        named (anyOf [.one (.letter ||| .chars "_$") ++ run0 (.word ||| .chars "$."), lit "\"" ++
        run0 (.except "\"") ++ lit "\"", lit "'" ++ run0 (.except "'") ++ lit "'"])),
    .marked .typeAlias .statement
      (blanks ++ optWord "export" ++ optWord "declare" ++ word "type" ++ named dollarIdent ++
        blanks ++ opt (lit "<" ++ run0 (.except "=") ++ lit ">") ++ blanks ++ lit "="),
    .marked .function .block scriptFunction,
    .marked .function .block scriptArrow,
    .marked .method .block scriptMethod,
    .marked .constant .statement scriptConstant,
    .marked .variable .statement scriptVariable,
    .marked .property .statement
      (gap ++ many (words ["public", "private", "protected", "readonly", "static", "declare",
        "override", "abstract"] ++ gap) ++ named (opt (lit "#") ++ dollarIdent) ++
        opt (.one (.chars "?!")) ++ blanks ++ lit ":")]

/-- The grammar of TypeScript. -/
def typescript : Grammar where
  language := .typescript
  lexicon := scriptLexicon
  style := .braces '{' '}'
  terminator := .newline
  rules := typescriptRules
  docs := scriptDocs
  attributes := .atSign
  modifiers := typescriptModifiers
  reserved := scriptReserved
  bracketContinuations := true

end Outline.Grammar
