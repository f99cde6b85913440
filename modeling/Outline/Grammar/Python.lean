import Outline.Grammar.Basic

namespace Outline.Grammar

open Pattern

/-- Comments and strings of Python. -/
def pythonLexicon : Lexicon where
  lineComments := [['#']]
  blockComment := none
  nestedComments := false
  strings :=
    [.quoted ['"', '"', '"'] ['"', '"', '"'] true true,
      .quoted ['\'', '\'', '\''] ['\'', '\'', '\''] true true,
      .quoted ['"'] ['"'] true false,
      .quoted ['\''] ['\''] true false]
  charLiterals := false
  hashAttributes := false

/-- Words before a name that are recorded. -/
def pythonModifiers : List Text :=
  ["async"].map String.toList

/-- Words that are never names. -/
def pythonReserved : List Text :=
  ["False", "None", "True", "and", "as", "assert", "async", "await", "break", "class", "continue",
    "def", "del", "elif", "else", "except", "finally", "for", "from", "global", "if", "import",
    "in", "is", "lambda", "nonlocal", "not", "or", "pass", "raise", "return", "try", "while",
    "with", "yield", "self", "cls"].map String.toList

/-- Rules for declarations, in the order in which they are tried. -/
def pythonRules : List Rule :=
  [.marked .classType .block (blanks ++ word "class" ++ named ident),
    .marked .function .block (blanks ++ optWord "async" ++ word "def" ++ named ident),
    .marked .constant .statement
      (blanks ++ named (.one .upper ++ run0 (.upper ||| .digit ||| .char '_')) ++ blanks ++
        opt (lit ":" ++ run1 (.except "=")) ++ lit "=" ++ .one (.except "=")),
    .marked .variable .statement
      (blanks ++ named ident ++ blanks ++ opt (lit ":" ++ run1 (.except "=")) ++ lit "=" ++
        .one (.except "="))]

/-- The grammar of Python. -/
def python : Grammar where
  language := .python
  lexicon := pythonLexicon
  style := .indent
  terminator := .newline
  rules := pythonRules
  docs := ⟨[], none, true, false⟩
  attributes := .atSign
  modifiers := pythonModifiers
  reserved := pythonReserved
  bracketContinuations := true

end Outline.Grammar
