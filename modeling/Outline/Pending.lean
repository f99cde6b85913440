import Outline.Text.Basic

namespace Outline

/-- Documentation and modifiers that the next declaration will claim, in the order they were met. -/
structure Pending where
  docs : List Text
  modifiers : List Text
deriving DecidableEq, Repr

namespace Pending

/-- Nothing waits. -/
def empty : Pending :=
  ⟨[], []⟩

/-- One more documentation text waits. -/
def pushDoc (pending : Pending) (text : Text) : Pending :=
  ⟨pending.docs ++ [text], pending.modifiers⟩

/-- One more modifier waits. -/
def pushModifier (pending : Pending) (text : Text) : Pending :=
  ⟨pending.docs, pending.modifiers ++ [text]⟩

/-- Whether nothing waits. -/
def isEmpty (pending : Pending) : Bool :=
  pending.docs.isEmpty && pending.modifiers.isEmpty

/-- The documentation that waits, as one text; blank text counts as none. -/
def doc? (pending : Pending) : Option Text :=
  let joined := Text.trim (Text.join ['\n'] pending.docs)
  if joined.isEmpty then none else some joined

end Pending

end Outline
