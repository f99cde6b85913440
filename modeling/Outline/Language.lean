import Outline.Text.Lowercase

namespace Outline

/-- A source language. -/
inductive Language where
  | python
  | rust
  | go
  | javascript
  | typescript
  | c
  | cpp
  | java
  | csharp
  | php
  | swift
  | julia
  | r
deriving DecidableEq, Repr, Inhabited

namespace Language

/-- Every language, in display order. -/
def all : List Language :=
  [.python, .rust, .go, .javascript, .typescript, .c, .cpp, .java, .csharp, .php, .swift, .julia, .r]

/-- The word that names a language in documents and on screen. -/
def tag : Language → String
  | .python => "python"
  | .rust => "rust"
  | .go => "go"
  | .javascript => "javascript"
  | .typescript => "typescript"
  | .c => "c"
  | .cpp => "cpp"
  | .java => "java"
  | .csharp => "csharp"
  | .php => "php"
  | .swift => "swift"
  | .julia => "julia"
  | .r => "r"

/-- The language that a word names exactly. -/
def ofTag? (word : String) : Option Language :=
  all.find? fun language => language.tag == word

/-- File extensions of a language, in alphabetical order. -/
def extensions : Language → List String
  | .python => ["py", "pyi"]
  | .rust => ["rs"]
  | .go => ["go"]
  | .javascript => ["cjs", "js", "jsx", "mjs"]
  | .typescript => ["cts", "mts", "ts", "tsx"]
  | .c => ["c", "h"]
  | .cpp => ["cc", "cpp", "cxx", "hh", "hpp", "hxx"]
  | .java => ["java"]
  | .csharp => ["cs"]
  | .php => ["php"]
  | .swift => ["swift"]
  | .julia => ["jl"]
  | .r => ["r"]

/-- Other words, in lower case, by which a language is known. -/
def aliases : Language → List String
  | .go => ["golang"]
  | .javascript => ["js"]
  | .typescript => ["ts"]
  | .cpp => ["c++"]
  | .csharp => ["c#"]
  | _ => []

/-- An extension without leading dots and in lower case. -/
def normalizeExtension (extension : Text) : Text :=
  Text.lower (extension.dropWhile (· == '.'))

/-- The language of a file extension, given with or without its dot and in any case. -/
def ofExtension? (extension : Text) : Option Language :=
  let wanted := String.ofList (normalizeExtension extension)
  all.find? fun language => language.extensions.contains wanted

/-- The language that a name means, in any case and with white space around it. -/
def ofName? (name : Text) : Option Language :=
  let wanted := String.ofList (Text.lower (Text.trim name))
  all.find? fun language => language.tag == wanted || language.aliases.contains wanted

end Language

end Outline
