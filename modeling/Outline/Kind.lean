namespace Outline

/-- What a declaration declares. -/
inductive Kind where
  | function
  | method
  | classType
  | structType
  | enumType
  | traitType
  | interfaceType
  | implBlock
  | moduleScope
  | namespaceScope
  | constant
  | variable
  | macroRule
  | importing
  | property
  | package
  | typeAlias
deriving DecidableEq, Repr, Inhabited

namespace Kind

/-- Every kind. -/
def all : List Kind :=
  [.function, .method, .classType, .structType, .enumType, .traitType, .interfaceType, .implBlock,
    .moduleScope, .namespaceScope, .constant, .variable, .macroRule, .importing, .property, .package,
    .typeAlias]

/-- The word that names a kind in documents and on screen. -/
def tag : Kind → String
  | .function => "function"
  | .method => "method"
  | .classType => "class"
  | .structType => "struct"
  | .enumType => "enum"
  | .traitType => "trait"
  | .interfaceType => "interface"
  | .implBlock => "impl"
  | .moduleScope => "module"
  | .namespaceScope => "namespace"
  | .constant => "constant"
  | .variable => "variable"
  | .macroRule => "macro"
  | .importing => "import"
  | .property => "property"
  | .package => "package"
  | .typeAlias => "type_alias"

/-- The kind that a word names. -/
def ofTag? (word : String) : Option Kind :=
  all.find? fun kind => kind.tag == word

/-- Kinds whose interior is searched for further declarations. -/
def isContainer : Kind → Bool
  | .classType | .structType | .enumType | .traitType | .interfaceType | .implBlock
  | .moduleScope | .namespaceScope => true
  | _ => false

/-- Kinds that can be called. -/
def isCallable : Kind → Bool
  | .function | .method => true
  | _ => false

end Kind

end Outline
