namespace Outline

/-- Why a run gives no answer. -/
inductive Breakdown where
  /-- A sum of 64-bit words is no word, and the run panics. -/
  | overflow
  /-- A reader makes moves for ever that take no characters. -/
  | endless
deriving DecidableEq, Repr

/-- What is said of a panic at a sum. -/
def overflowMessage : String := "attempt to add with overflow"

/-- The sum of two words, if it is a word. -/
def sumWord? (a b : Nat) : Except Breakdown Nat :=
  if a + b < UInt64.size then .ok (a + b) else .error .overflow

/-- The sum of two words, or the largest word where that is less. -/
def saturatingSum (a b : Nat) : Nat :=
  min (a + b) (UInt64.size - 1)

theorem sumWord?_eq_ok {a b : Nat} (hfits : a + b < UInt64.size) : sumWord? a b = .ok (a + b) :=
  if_pos hfits

/-- For a word it does not matter whether the sum below it saturates. -/
theorem saturatingSum_lt_iff {a b index : Nat} (hindex : index < UInt64.size) :
    saturatingSum a b < index ↔ a + b < index := by
  unfold saturatingSum
  omega

theorem min_saturatingSum {a b last : Nat} (hlast : last < UInt64.size) :
    min (saturatingSum a b) last = min (a + b) last := by
  unfold saturatingSum
  omega

end Outline
