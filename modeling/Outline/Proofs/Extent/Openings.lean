import Outline.Proofs.Extent.Pairs

namespace Outline

theorem tally_pairValue_eq_zero {opener closer : Char} {code : Text} (hopener : opener ∉ code)
    (hcloser : closer ∉ code) : Text.tally (pairValue opener closer) code = 0 := by
  induction code with
  | nil => rfl
  | cons c code ih =>
    obtain ⟨hopens, hopener⟩ := not_or.1 (mt List.mem_cons.2 hopener)
    obtain ⟨hcloses, hcloser⟩ := not_or.1 (mt List.mem_cons.2 hcloser)
    rw [Text.tally_cons, ih hopener hcloser, pairValue, if_neg (Ne.symm hopens), if_neg (Ne.symm hcloses),
      Int.add_zero]

/-- Code opens a body between `before` and `after`: the first character of the pair opens it, where no round or
square bracket is open, and no semicolon outside brackets ends the declaration before. -/
structure OpensBody (opener closer : Char) (terminator : Terminator) (code before after : Text) : Prop where
  code_eq : code = before ++ opener :: after
  opener_not_mem : opener ∉ before
  closer_not_mem : closer ∉ before
  outside : Text.tally parenValue before ≤ 0
  running : terminator = .semicolon → ∀ part, part ++ [';'] <+: before → 0 < Text.tally parenValue part

namespace OpensBody

variable {opener closer : Char} {terminator : Terminator} {code before after : Text}

/-- Nothing before the opening decides the search for it. -/
theorem undecided (hopens : OpensBody opener closer terminator code before after) :
    Undecided opener terminator 0 before := by
  rintro part c hpart (rfl | ⟨rfl, hterminator⟩)
  · exact absurd (hpart.subset (List.mem_append_right _ (List.mem_singleton_self c))) hopens.opener_not_mem
  · simpa using hopens.running hterminator part hpart

/-- The net of the line is the count from the opening on. -/
theorem tally_code (hopens : OpensBody opener closer terminator code before after) :
    Text.tally (pairValue opener closer) code = 1 + Text.tally (pairValue opener closer) after := by
  rw [hopens.code_eq, Text.tally_append, tally_pairValue_eq_zero hopens.opener_not_mem hopens.closer_not_mem,
    Text.tally_cons, pairValue, if_pos rfl, Int.zero_add]

end OpensBody

namespace BlockRules

/-- Where the first line opens a body, the search for the opening and the count from the net of the line find the
same extent, whatever follows on that line and after it. The opening is code and stands in no brackets, and it is
neither a round or square bracket nor a semicolon. -/
theorem blockExtent_eq_openBlockExtent (rules : BlockRules) (opener closer : Char) (lines : List Text)
    (start last : Nat) (hstyle : rules.style = .braces opener closer) (hopener : opener ∉ ['(', ')', '[', ']', ';'])
    {before after : Text}
    (hopens : OpensBody opener closer rules.terminator (rules.lexicon.readingFrom lines start start).codeText before
      after) :
    rules.blockExtent start (windowOf lines start last) = rules.openBlockExtent start (windowOf lines start last) := by
  simp only [blockExtent, openBlockExtent, hstyle]
  cases hwindow : windowOf lines start last with
  | nil => rfl
  | cons line rest =>
    have hreading : rules.lexicon.readLine .code line = rules.lexicon.readingFrom lines start start := by
      rw [← rules.lexicon.readLine_of_windowOf hwindow, Lexicon.stateFrom_self]
    have hscan : (before ++ opener :: after).foldl (HeadScan.step opener closer rules.terminator)
        ⟨0, 0, false, false⟩ =
          ⟨0 + Text.tally parenValue before, 1 + Text.tally (pairValue opener closer) after, true, false⟩ :=
      HeadScan.foldl_step_opener hopener hopens.undecided (by rw [Int.zero_add]; exact hopens.outside) after
    have hmem : opener ∈ (rules.lexicon.readingFrom lines start start).codeText := by
      rw [hopens.code_eq]
      exact List.mem_append_right _ List.mem_cons_self
    rw [← hopens.code_eq] at hscan
    simp only [List.isEmpty_cons, Bool.false_eq_true, if_false, braceExtent, findOpener, pairExtent, hreading, hscan,
      netCount_eq, decide_eq_true hmem, hopens.tally_code, if_true, Bool.not_true, Bool.false_or, decide_eq_true_eq,
      Nat.zero_add, List.length_cons, Nat.add_succ_sub_one]
    rfl

/-- A body whose first line has a semicolon inside brackets, a pair of its own and another one in a comment. -/
def crowdedLine : List Text :=
  ["fn a(x: [u8; 2]) \x7b b \x7b\x7d // \x7d".toList, "c \x7d fn d() \x7b\x7d".toList]

theorem opensBody_crowdedLine :
    OpensBody '{' '}' .semicolon (Grammar.rustLexicon.readingFrom crowdedLine 0 0).codeText
      "fn a(x: [u8; 2]) ".toList " b \x7b\x7d ".toList where
  code_eq := by decide
  opener_not_mem := by decide
  closer_not_mem := by decide
  outside := by decide
  running _ part hpart := by
    have hundecided : Undecided '{' .semicolon 0 "fn a(x: [u8; 2]) ".toList := by decide
    simpa using hundecided part ';' hpart (.inr ⟨rfl, rfl⟩)

theorem blockExtent_eq_openBlockExtent_crowdedLine :
    (Language.rust.grammar.blockRules {}).blockExtent 0 (windowOf crowdedLine 0 1) = ⟨0, 1, .matched⟩ ∧
      (Language.rust.grammar.blockRules {}).blockExtent 0 (windowOf crowdedLine 0 1) =
        (Language.rust.grammar.blockRules {}).openBlockExtent 0 (windowOf crowdedLine 0 1) :=
  ⟨by decide, blockExtent_eq_openBlockExtent _ '{' '}' crowdedLine 0 1 rfl (by decide) opensBody_crowdedLine⟩

end BlockRules

end Outline
