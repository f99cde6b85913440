import Outline.Proofs.Extent.Bounds
import Outline.Proofs.Text.Lines

namespace Outline

/-- The most lines that a search may put between the first line of a declaration and its last. -/
def SearchLimits.reach (limits : SearchLimits) : Nat :=
  max (max limits.maxBlockSpan limits.openerLookahead) limits.fallbackSpan

namespace SearchLimits

variable (limits : SearchLimits)

end SearchLimits

namespace BlockRules

/-- An extent that ends within the distance that the limits allow, and that is the first line alone when it
claims to be of one line. -/
structure Reaches (rules : BlockRules) (start : Nat) (extent : Extent) : Prop where
  last_le : extent.last ≤ start + rules.limits.reach
  eq_single : extent.outcome = .singleLine → extent = .single start

variable {rules : BlockRules} {start last headerEnd : Nat}

theorem exceeds_iff {index iterations : Nat} : rules.exceeds start index iterations = true ↔
    start + rules.limits.maxBlockSpan < index ∨ rules.limits.maxIterations < iterations := by
  simp [exceeds]

theorem admits_pairExtent {opener closer : Char} {window : List Text} (hsome : window ≠ [])
    (hlines : start + window.length = last + 1) :
    rules.Admits start last (rules.pairExtent opener closer start window) := by
  cases window with
  | nil => exact absurd rfl hsome
  | cons line rest =>
    rw [List.length_cons] at hlines
    obtain rfl : start + rest.length = last := by omega
    simp only [pairExtent]
    split
    · exact admits_single (Nat.le_add_right _ _)
    · exact admits_countToClose (Nat.le_refl _) (Nat.lt_succ_self _) (by omega)

theorem admits_openBlockExtent {window : List Text} (hsome : window ≠ []) (hlines : start + window.length = last + 1) :
    rules.Admits start last (rules.openBlockExtent start window) := by
  unfold openBlockExtent
  split
  · exact admits_pairExtent hsome hlines
  · exact admits_blockExtent hsome hlines

theorem admits_statementExtent {window : List Text} (hsome : window ≠ []) (hlines : start + window.length = last + 1) :
    rules.Admits start last (rules.statementExtent start window) := by
  have hpos := List.length_pos_iff.2 hsome
  have hlast : start + window.length - 1 = last := by omega
  simp only [statementExtent, List.isEmpty_iff, hsome, if_false, hlast]
  exact admits_statementBody (by omega) (Nat.le_refl _) hlines

end BlockRules

end Outline
