import Outline.Text.Basic

namespace Outline

/-- A JSON value. A number is `mantissa / 10 ^ scale`. -/
inductive Json where
  | null
  | bool (value : Bool)
  | number (mantissa : Int) (scale : Nat)
  | str (value : String)
  | arr (items : List Json)
  | obj (fields : List (String × Json))
deriving Repr, BEq, Inhabited

namespace Json

/-- A natural number as a value. -/
def nat (n : Nat) : Json :=
  .number n 0

/-- A list of strings as a value. -/
def strs (items : List String) : Json :=
  .arr (items.map .str)

/-- A text as a value. -/
def text (t : Text) : Json :=
  .str (String.ofList t)

/-- An absent value is written as null. -/
def orNull (value : Option Json) : Json :=
  value.getD .null

/-- The field of an object, if the value is an object that has it. -/
def field? (name : String) : Json → Option Json
  | .obj fields => fields.lookup name
  | _ => none

/-- Whether the value is an object. -/
def isObj : Json → Bool
  | .obj _ => true
  | _ => false

/-- Reads a string. -/
def str? : Json → Option String
  | .str value => some value
  | _ => none

/-- Reads a truth value. -/
def bool? : Json → Option Bool
  | .bool value => some value
  | _ => none

/-- Reads a natural number that fits 64 bits. -/
def word? : Json → Option Nat
  | .number (.ofNat n) 0 => if n < UInt64.size then some n else none
  | _ => none

/-- Reads the items of a list. -/
def items? : Json → Option (List Json)
  | .arr items => some items
  | _ => none

/-- Reads the fields of an object. -/
def fields? : Json → Option (List (String × Json))
  | .obj fields => some fields
  | _ => none

/-- A record with its fields by name. A list that is no longer than the names gives the fields in
their order; every other value is left as it is. -/
def named (names : List String) : Json → Json
  | .arr items => if items.length ≤ names.length then .obj (names.zip items) else .arr items
  | value => value

/-- Reads a choice among words: the word itself, or an object whose only field is named by the word
and is null. -/
def choice? : Json → Option String
  | .str word => some word
  | .obj [(word, .null)] => some word
  | _ => none

/-- Reads a list whose items all have the shape that `read` accepts. -/
def list? (read : Json → Option α) (value : Json) : Option (List α) :=
  value.items?.bind fun items => items.mapM read

/-- Reads a field that must be present. -/
def required? (name : String) (read : Json → Option α) (value : Json) : Option α :=
  (value.field? name).bind read

/-- Reads a field that may be missing, in which case it has the value `absent`. -/
def optional? (name : String) (absent : α) (read : Json → Option α) (value : Json) : Option α :=
  match value.field? name with
  | some found => read found
  | none => some absent

/-- Reads a value that may be null. -/
def nullable? (read : Json → Option α) : Json → Option (Option α)
  | .null => some none
  | value => (read value).map some

end Json

end Outline
