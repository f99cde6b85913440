import Outline.Json.Basic

namespace Outline

/-- Ceilings on the search for the last line of one declaration. -/
structure SearchLimits where
  /-- Lines walked at most in search of the end of a block. -/
  maxBlockSpan : Nat := 2000
  /-- Characters examined at most for one block. -/
  maxIterations : Nat := 1000000
  /-- Lines assumed for a block whose end was not found. -/
  fallbackSpan : Nat := 50
  /-- Lines searched for the opening of a body after the line of the declaration. -/
  openerLookahead : Nat := 8
deriving DecidableEq, Repr, Inhabited

/-- Ceilings that bound the work done for one file. All are 64-bit numbers. -/
structure Limits extends SearchLimits where
  /-- Levels of nesting at most. -/
  maxDepth : Nat := 20
  /-- Declarations at most in one file. -/
  maxDeclarations : Nat := 10000
deriving DecidableEq, Repr, Inhabited

namespace Limits

/-- The names of the limits in documents. -/
def fieldNames : List String :=
  ["max_block_span", "max_iterations", "fallback_span", "opener_lookahead", "max_depth",
    "max_declarations"]

/-- Reads limits by name, or in the order of their names; what is missing has its default. -/
def ofJson? (document : Json) : Option Limits := do
  let value := document.named fieldNames
  guard value.isObj
  let standard : Limits := {}
  let maxBlockSpan ← value.optional? "max_block_span" standard.maxBlockSpan Json.word?
  let maxIterations ← value.optional? "max_iterations" standard.maxIterations Json.word?
  let fallbackSpan ← value.optional? "fallback_span" standard.fallbackSpan Json.word?
  let openerLookahead ← value.optional? "opener_lookahead" standard.openerLookahead Json.word?
  let maxDepth ← value.optional? "max_depth" standard.maxDepth Json.word?
  let maxDeclarations ← value.optional? "max_declarations" standard.maxDeclarations Json.word?
  return ⟨⟨maxBlockSpan, maxIterations, fallbackSpan, openerLookahead⟩, maxDepth, maxDeclarations⟩

/-- Limits as an object with every field. -/
def toJson (limits : Limits) : Json :=
  .obj [("max_block_span", .nat limits.maxBlockSpan), ("max_iterations", .nat limits.maxIterations),
    ("fallback_span", .nat limits.fallbackSpan), ("opener_lookahead", .nat limits.openerLookahead),
    ("max_depth", .nat limits.maxDepth), ("max_declarations", .nat limits.maxDeclarations)]

end Limits

end Outline
