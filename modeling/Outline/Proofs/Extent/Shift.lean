import Outline.Proofs.Extent.Bounds

namespace Outline

namespace Extent

/-- The extent of the same lines `k` lines further down. -/
def shift (k : Nat) (extent : Extent) : Extent :=
  ⟨extent.headerEnd + k, extent.last + k, extent.outcome⟩

@[simp]
theorem shift_headerEnd (k : Nat) (extent : Extent) : (extent.shift k).headerEnd = extent.headerEnd + k := rfl

@[simp]
theorem shift_last (k : Nat) (extent : Extent) : (extent.shift k).last = extent.last + k := rfl

@[simp]
theorem shift_outcome (k : Nat) (extent : Extent) : (extent.shift k).outcome = extent.outcome := rfl

@[simp]
theorem shift_zero (extent : Extent) : extent.shift 0 = extent := rfl

@[simp]
theorem isDegraded_shift (k : Nat) (extent : Extent) : (extent.shift k).isDegraded = extent.isDegraded := rfl

@[simp]
theorem hasInterior_shift (k : Nat) (extent : Extent) : (extent.shift k).hasInterior = extent.hasInterior := by
  simp [hasInterior]

end Extent

namespace BlockRules

variable (rules : BlockRules) (start last headerEnd k : Nat)

theorem fallback_shift (outcome : Outcome) :
    rules.fallback (start + k) (last + k) (headerEnd + k) outcome =
      (rules.fallback start last headerEnd outcome).shift k := by
  simp only [fallback, Extent.shift, Extent.mk.injEq, true_and, and_true]
  omega

theorem exceeds_shift (index iterations : Nat) :
    rules.exceeds (start + k) (index + k) iterations = rules.exceeds start index iterations := by
  have hspan : start + k + rules.limits.maxBlockSpan < index + k ↔
      start + rules.limits.maxBlockSpan < index := by omega
  simp [exceeds, hspan]

theorem countToClose_shift (opener closer : Char) (index iterations : Nat) (state : LexState)
    (depth : Int) (lines : List Text) :
    rules.countToClose opener closer (start + k) (headerEnd + k) (last + k) (index + k) iterations state depth
        lines =
      (rules.countToClose opener closer start headerEnd last index iterations state depth lines).shift k := by
  induction lines generalizing index iterations state depth with
  | nil => exact fallback_shift rules start last headerEnd k _
  | cons line rest ih =>
    have hrest := ih (index + 1)
    rw [Nat.add_right_comm] at hrest
    simp only [countToClose, exceeds_shift, fallback_shift, hrest]
    split
    · rfl
    · split <;> rfl

theorem findOpener_shift (opener closer : Char) (index iterations : Nat) (state : LexState)
    (parens : Int) (lines : List Text) :
    rules.findOpener opener closer (start + k) (last + k) (index + k) iterations state parens lines =
      (rules.findOpener opener closer start last index iterations state parens lines).shift k := by
  induction lines generalizing index iterations state parens with
  | nil => rfl
  | cons line rest ih =>
    have hlimit : min (start + k + rules.limits.openerLookahead) (last + k) ≤ index + k ↔
        min (start + rules.limits.openerLookahead) last ≤ index := by omega
    have hfirst : index + k = start + k ↔ index = start := by omega
    have hcount := countToClose_shift rules start last index k opener closer (index + 1)
    have hrest := ih (index + 1)
    rw [Nat.add_right_comm] at hcount hrest
    simp only [findOpener, hlimit, hfirst, hcount, hrest]
    split
    · rfl
    · split
      · split <;> rfl
      · split <;> rfl

/-- The head of an indented declaration moves with its lines; what was examined and what is left do not. -/
theorem indentHead_shift (index iterations : Nat) (state : LexState) (brackets : Int) (lines : List Text) :
    rules.indentHead (start + k) (last + k) (index + k) iterations state brackets lines =
      ((rules.indentHead start last index iterations state brackets lines).1 + k,
        (rules.indentHead start last index iterations state brackets lines).2) := by
  induction lines generalizing index iterations state brackets with
  | nil => rfl
  | cons line rest ih =>
    have hlast : last + k ≤ index + k ↔ last ≤ index := by omega
    have hspan : index + k - (start + k) = index - start := by omega
    simp only [indentHead, hlast, hspan]
    split
    · rfl
    · have hrest := ih (index + 1)
      rw [Nat.add_right_comm] at hrest
      exact hrest _ _ _

theorem closeIndent_shift (reached : Nat) :
    closeIndent (start + k) (headerEnd + k) (reached + k) = (closeIndent start headerEnd reached).shift k := by
  simp [closeIndent, Extent.shift]

theorem indentBody_shift (base index iterations reached : Nat) (state : LexState) (lines : List Text) :
    rules.indentBody (start + k) (headerEnd + k) (last + k) base (index + k) iterations (reached + k) state
        lines =
      (rules.indentBody start headerEnd last base index iterations reached state lines).shift k := by
  induction lines generalizing index iterations reached state with
  | nil => exact closeIndent_shift start headerEnd k reached
  | cons line rest ih =>
    have hrest := ih (index + 1)
    rw [Nat.add_right_comm] at hrest
    simp only [indentBody, exceeds_shift, fallback_shift, closeIndent_shift, hrest]
    repeat' split
    all_goals rfl

theorem keywordBody_shift (index iterations : Nat) (state : LexState) (depth brackets : Nat)
    (previous : Text) (lines : List Text) :
    rules.keywordBody (start + k) (last + k) (index + k) iterations state depth brackets previous lines =
      (rules.keywordBody start last index iterations state depth brackets previous lines).shift k := by
  induction lines generalizing index iterations state depth brackets previous with
  | nil => exact fallback_shift rules start last start k _
  | cons line rest ih =>
    have hfirst : index + k = start + k ↔ index = start := by omega
    have hrest := ih (index + 1)
    rw [Nat.add_right_comm] at hrest
    simp only [keywordBody, exceeds_shift, fallback_shift, hfirst, hrest]
    split
    · rfl
    · split
      · split <;> rfl
      · rfl

theorem statementBody_shift (index iterations : Nat) (state : LexState) (balance : Int)
    (lines : List Text) :
    rules.statementBody (start + k) (last + k) (index + k) iterations state balance lines =
      (rules.statementBody start last index iterations state balance lines).shift k := by
  induction lines generalizing index iterations state balance with
  | nil => exact fallback_shift rules start last start k _
  | cons line rest ih =>
    have hfirst : index + k = start + k ↔ index = start := by omega
    have hrest := ih (index + 1)
    rw [Nat.add_right_comm] at hrest
    simp only [statementBody, exceeds_shift, fallback_shift, hfirst, hrest]
    split
    · rfl
    · split <;> rfl

/-- The extent of a body moves with its window in every style. -/
theorem blockExtent_shift {window : List Text} (hsome : window ≠ []) :
    rules.blockExtent (start + k) window = (rules.blockExtent start window).shift k := by
  have hpos := List.length_pos_iff.2 hsome
  have hlast : start + k + window.length - 1 = start + window.length - 1 + k := by omega
  simp only [blockExtent, List.isEmpty_iff, hsome, if_false]
  cases rules.style with
  | braces opener closer =>
    simp only [braceExtent, hlast]
    exact findOpener_shift rules start _ k opener closer start 0 .code 0 window
  | indent =>
    simp only [indentExtent, hlast, indentHead_shift]
    rw [Nat.add_right_comm _ k 1]
    exact indentBody_shift rules start _ _ k _ _ _ _ .code _
  | keyword =>
    simp only [keywordExtent, hlast]
    exact keywordBody_shift rules start _ k start 0 .code 0 0 [] window

end BlockRules

namespace Grammar

/-- The extent of a declaration moves with its window: a search compares line numbers with each other and
never with a fixed number. This is said of unbounded sums, of which a guess may be no word at the second
place although it is one at the first. -/
theorem extent_shift (grammar : Grammar) (limits : Limits) (body : Body) (index k : Nat) {window : List Text}
    (hsome : window ≠ []) :
    grammar.extent limits body (index + k) window = (grammar.extent limits body index window).shift k := by
  have hpos := List.length_pos_iff.2 hsome
  have hlast : index + k + window.length - 1 = index + window.length - 1 + k := by omega
  cases body with
  | block => exact BlockRules.blockExtent_shift _ _ k hsome
  | statement =>
    simp only [extent, BlockRules.statementExtent, List.isEmpty_iff, hsome, if_false, hlast]
    exact BlockRules.statementBody_shift _ _ _ k _ 0 .code 0 window
  | line => rfl

end Grammar

end Outline
