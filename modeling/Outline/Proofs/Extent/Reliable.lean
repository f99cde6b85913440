import Outline.Grammar.All
import Outline.Proofs.Extent.Checked

namespace Outline

namespace BlockRules

/-- What can be relied on of an extent found for the lines from `start` to `last`. -/
structure Reliable (rules : BlockRules) (start last : Nat) (extent : Extent) : Prop where
  start_le_headerEnd : start ≤ extent.headerEnd
  headerEnd_le_last : extent.headerEnd ≤ extent.last
  last_le : extent.last ≤ last
  span_le : extent.last - start ≤
    max (max rules.limits.maxBlockSpan rules.limits.openerLookahead) rules.limits.fallbackSpan
  singleLine : extent.outcome = .singleLine → extent.headerEnd = start ∧ extent.last = start
  guess : extent.isDegraded = true →
    extent.last = max extent.headerEnd (min (start + rules.limits.fallbackSpan) last)
  interior : extent.hasInterior = true → extent.headerEnd < extent.last

variable {rules : BlockRules} {start last : Nat}

/-- A search in words gives a reliable extent where the search over unbounded sums does. -/
theorem RunsTo.returns {run : Except Breakdown Extent} {extent : Extent} {lines : List Text}
    (hrun : rules.RunsTo start lines run extent) (hspan : start + rules.limits.fallbackSpan < UInt64.size)
    (hreliable : rules.Reliable start last extent) :
    (∃ extent, run = .ok extent ∧ rules.Reliable start last extent) ∨
      run = .error .endless ∧ rules.lexicon.hasMarks = false ∧ rules.MayStall lines := by
  cases hrun with
  | answers => exact .inl ⟨extent, if_neg fun hguess => Nat.not_lt.2 hguess.2 hspan, hreliable⟩
  | stalls hstalls =>
    exact .inr ⟨rfl, Bool.eq_false_iff.2 fun hmarks => not_mayStall hmarks lines hstalls, hstalls⟩

theorem fits_of_storage (rules : BlockRules) {lines : List Text} (hstart : start < lines.length) (hlast : start ≤ last)
    (hmemory : 3 * Text.storage lines < UInt64.size) :
    rules.Fits 3 rules.lexicon.Tame start 0 .code (windowOf lines start last) :=
  fits_windowOf rules.lexicon.paced_tame (by decide) Lexicon.Tame.possible hstart hlast hmemory

/-- Where a search returns, its answer is the extent over unbounded sums, whatever the marks are: what is shown of
that extent holds of the answer. Assumed is that there are words for three moves over each byte of the lines. -/
theorem answers_eq (rules : BlockRules) (lines : List Text) (start last : Nat) (hstart : start < lines.length)
    (hlast : start ≤ last) (hmemory : 3 * Text.storage lines < UInt64.size) (answer : Extent) :
    (rules.blockExtent? start (windowOf lines start last) = .ok answer →
        answer = rules.blockExtent start (windowOf lines start last)) ∧
      (rules.openBlockExtent? start (windowOf lines start last) = .ok answer →
        answer = rules.openBlockExtent start (windowOf lines start last)) ∧
      (rules.statementExtent? start (windowOf lines start last) = .ok answer →
        answer = rules.statementExtent start (windowOf lines start last)) := by
  have hfits := fits_of_storage rules hstart hlast hmemory
  exact ⟨(runsTo_blockExtent? hfits).eq_of_ok, (runsTo_openBlockExtent? hfits).eq_of_ok,
    (runsTo_statementExtent? hfits).eq_of_ok⟩

/-- A literal between empty marks: the reader goes to and fro between code and the literal. -/
example :
    blockExtent? ⟨⟨[], none, false, [.quoted [] [] false false], false, false⟩, .indent, .newline, {}⟩ 0
      ["x".toList] = .error .endless := by
  decide

end BlockRules

end Outline
