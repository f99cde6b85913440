import Outline.Text.Basic

namespace Outline

/-- A set of characters. -/
inductive CharClass where
  /-- One character. -/
  | char (c : Char)
  /-- The characters of an interval. -/
  | range (first last : Char)
  /-- Word characters. -/
  | word
  /-- White space. -/
  | blank
  /-- The characters of either class. -/
  | union (a b : CharClass)
  /-- The characters that are not in the class. -/
  | compl (a : CharClass)
deriving DecidableEq, Repr

namespace CharClass

/-- Whether a character is in the class. -/
def contains : CharClass → Char → Bool
  | .char c, x => x == c
  | .range first last, x => first ≤ x && x ≤ last
  | .word, x => isWordChar x
  | .blank, x => isBlank x
  | .union a b, x => a.contains x || b.contains x
  | .compl a, x => !a.contains x

instance : OrOp CharClass := ⟨union⟩

/-- The class of the characters of a list, which is not empty. -/
def ofChars : Char → Text → CharClass
  | c, [] => .char c
  | c, d :: rest => .union (.char c) (ofChars d rest)

/-- The characters of a string, which is not empty. -/
def chars (s : String) : CharClass :=
  match s.toList with
  | [] => .compl (.union .word (.compl .word))
  | c :: rest => ofChars c rest

/-- All characters but those of a string. -/
def except (s : String) : CharClass :=
  .compl (chars s)

/-- Any character but a line feed. -/
def any : CharClass :=
  .compl (.char '\n')

/-- Upper-case ASCII letters. -/
def upper : CharClass :=
  .range 'A' 'Z'

/-- ASCII letters. -/
def letter : CharClass :=
  .union upper (.range 'a' 'z')

/-- ASCII digits. -/
def digit : CharClass :=
  .range '0' '9'

end CharClass

end Outline
