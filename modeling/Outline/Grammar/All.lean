import Outline.Grammar.CSharp
import Outline.Grammar.Cpp
import Outline.Grammar.Go
import Outline.Grammar.Java
import Outline.Grammar.Julia
import Outline.Grammar.Php
import Outline.Grammar.Python
import Outline.Grammar.R
import Outline.Grammar.Rust
import Outline.Grammar.Swift
import Outline.Grammar.TypeScript

namespace Outline

/-- The grammar of a language. -/
def Language.grammar : Language → Grammar
  | .python => Grammar.python
  | .rust => Grammar.rust
  | .go => Grammar.go
  | .javascript => Grammar.javascript
  | .typescript => Grammar.typescript
  | .c => Grammar.c
  | .cpp => Grammar.cpp
  | .java => Grammar.java
  | .csharp => Grammar.csharp
  | .php => Grammar.php
  | .swift => Grammar.swift
  | .julia => Grammar.julia
  | .r => Grammar.r

end Outline
