import Outline.Proofs.Extent.Balance
import Outline.Proofs.Extent.Reach
import Outline.Proofs.Lexing.Stream

namespace Outline

namespace BlockRules

/-- The opening of the body stands on line `line`, between `before` and `after` in the code of that line: the
head of the declaration goes on up to that line, and the opening is the first character that decides outside
brackets. -/
structure OpensOn (rules : BlockRules) (opener : Char) (lines : List Text) (start last line : Nat)
    (before after : Text) : Prop where
  start_le : start ≤ line
  line_le : line ≤ last
  line_lt : line < lines.length
  le_lookahead : line ≤ start + rules.limits.openerLookahead
  continues : ∀ k, start ≤ k → k < line →
    headContinues opener (rules.lexicon.stateFrom lines start (k + 1))
      (Text.tally parenValue (rules.lexicon.codeFrom lines start start (k + 1))) (lines.getD k [])
      (windowOf lines (k + 1) last) = true
  code_eq : (rules.lexicon.readingFrom lines start line).codeText = before ++ opener :: after
  undecided : Undecided opener rules.terminator 0 (rules.lexicon.codeFrom lines start start line ++ before)
  outside : Text.tally parenValue (rules.lexicon.codeFrom lines start start line ++ before) ≤ 0

/-- The count of open pairs, which is `count` at the end of line `line`, is zero somewhere on line `stop`. -/
def ReachesZero (rules : BlockRules) (opener closer : Char) (lines : List Text) (start line : Nat) (count : Int)
    (stop : Nat) : Prop :=
  ∃ part, part <+: (rules.lexicon.readingFrom lines start stop).codeText ∧
    count + Text.tally (pairValue opener closer)
      (rules.lexicon.codeFrom lines start (line + 1) stop ++ part) = 0

/-- The first line after `line` on which the count of open pairs is zero, when the search may get there. -/
structure ClosesOn (rules : BlockRules) (opener closer : Char) (lines : List Text) (start last line : Nat)
    (count : Int) (stop : Nat) : Prop where
  line_lt_stop : line < stop
  reachesZero : rules.ReachesZero opener closer lines start line count stop
  first : ∀ k, line < k → k < stop → ¬ rules.ReachesZero opener closer lines start line count k
  stop_le : stop ≤ last
  stop_lt : stop < lines.length
  le_span : stop ≤ start + rules.limits.maxBlockSpan
  examined_le : rules.lexicon.examinedFrom lines start stop ≤ rules.limits.maxIterations

/-- An extent whose head ends on `line` with `count` open pairs is matched exactly on the line that closes
them, and is a guess when there is no such line. -/
structure MatchesPairs (rules : BlockRules) (opener closer : Char) (lines : List Text) (start last line : Nat)
    (count : Int) (extent : Extent) : Prop where
  headerEnd_eq : extent.headerEnd = line
  matched_iff : ∀ stop, extent.outcome = .matched ∧ extent.last = stop ↔
    rules.ClosesOn opener closer lines start last line count stop
  otherwise : (¬ ∃ stop, rules.ClosesOn opener closer lines start last line count stop) →
    extent.outcome = .unterminated ∨ extent.outcome = .ceilingHit

variable {rules : BlockRules} {opener closer : Char} {lines : List Text} {start last line : Nat} {count : Int}

/-- No line before the one that the search has come to can close the pairs. -/
theorem ClosesOn.le_of_none {index stop : Nat} (hcloses : rules.ClosesOn opener closer lines start last line count stop)
    (hnone : ∀ k, line < k → k < index → ¬ rules.ReachesZero opener closer lines start line count k) :
    index ≤ stop := by
  by_contra! hlt
  exact hnone stop hcloses.line_lt_stop hlt hcloses.reachesZero

/-- One line of the search: the count closes on a line exactly when it is zero somewhere on that line. -/
theorem closed_iff_reachesZero {index : Nat}
    (hdepth : 0 < count + Text.tally (pairValue opener closer) (rules.lexicon.codeFrom lines start (line + 1) index)) :
    ((rules.lexicon.readingFrom lines start index).codeText.foldl (PairCount.step opener closer)
        ⟨count + Text.tally (pairValue opener closer) (rules.lexicon.codeFrom lines start (line + 1) index),
          false⟩).closed = true ↔
      rules.ReachesZero opener closer lines start line count index := by
  rw [PairCount.closed_foldl_iff hdepth]
  simp only [ReachesZero, Text.tally_append, Int.add_assoc]

/-- As long as the count has not been zero, the search finds the line that closes the pairs and no other. -/
theorem countToClose_eq_matched_iff {bound index stop : Nat} {depth : Int} (hstart : start ≤ line)
    (hindex : line < index)
    (hnone : ∀ k, line < k → k < index → ¬ rules.ReachesZero opener closer lines start line count k)
    (hcount : count + Text.tally (pairValue opener closer) (rules.lexicon.codeFrom lines start (line + 1) index) =
      depth) (hdepth : 0 < depth) :
    rules.countToClose opener closer start line bound index (rules.lexicon.examinedFrom lines start index)
        (rules.lexicon.stateFrom lines start index) depth (windowOf lines index last) = ⟨line, stop, .matched⟩ ↔
      rules.ClosesOn opener closer lines start last line count stop := by
  induction hwindow : windowOf lines index last generalizing index depth with
  | nil =>
    refine ⟨fun h => ?_, fun hcloses => ?_⟩
    · simp [countToClose, fallback] at h
    · have hle := hcloses.le_of_none hnone
      have hlast := hcloses.stop_le
      have hlength := hcloses.stop_lt
      have := of_windowOf_eq_nil hwindow
      omega
  | cons text rest ih =>
    subst hcount
    obtain ⟨hlast, hlength, hrest⟩ := of_windowOf_eq_cons hwindow
    have hfirst : start ≤ index := by omega
    rw [countToClose, rules.lexicon.readLine_of_windowOf hwindow]
    by_cases hexceeds : rules.exceeds start index (rules.lexicon.examinedFrom lines start index) = true
    · rw [if_pos hexceeds]
      -- both ceilings are monotone in the line, so they forbid every later line as well
      refine ⟨fun h => by simp [fallback] at h, fun hcloses => ?_⟩
      have hle := hcloses.le_of_none hnone
      have hspan := hcloses.le_span
      have hexamined := hcloses.examined_le
      have hmono : rules.lexicon.examinedFrom lines start index ≤ rules.lexicon.examinedFrom lines start stop :=
        rules.lexicon.examinedFrom_mono hle
      rw [exceeds_iff] at hexceeds
      omega
    · rw [if_neg hexceeds]
      rw [exceeds_iff] at hexceeds
      by_cases hzero : rules.ReachesZero opener closer lines start line count index
      · simp only [(closed_iff_reachesZero hdepth).2 hzero, if_true, Extent.mk.injEq, true_and, and_true]
        constructor
        · rintro rfl
          exact ⟨hindex, hzero, hnone, hlast, hlength, by omega, by omega⟩
        · intro hcloses
          have hle := hcloses.le_of_none hnone
          by_contra hne
          exact hcloses.first index hindex (by omega) hzero
      · have hopen := mt (closed_iff_reachesZero hdepth).1 hzero
        obtain ⟨hnext, hpos⟩ := PairCount.depth_foldl_of_open hdepth hopen
        rw [Int.add_assoc, ← Text.tally_append, ← rules.lexicon.codeFrom_succ hindex] at hnext hpos
        simp only [if_neg hopen, hnext]
        rw [← rules.lexicon.examinedFrom_succ hfirst, ← rules.lexicon.stateFrom_succ hfirst hlength]
        exact ih (by omega) (forall_lt_succ hnone hzero) rfl hpos hrest

theorem outcome_countToClose (rules : BlockRules) (opener closer : Char) (start line bound index iterations : Nat)
    (state : LexState) (depth : Int) (window : List Text) :
    (rules.countToClose opener closer start line bound index iterations state depth window).headerEnd = line ∧
      (rules.countToClose opener closer start line bound index iterations state depth window).outcome ∈
        [.matched, .unterminated, .ceilingHit] := by
  induction window generalizing index iterations state depth with
  | nil => exact ⟨rfl, by simp [countToClose, fallback]⟩
  | cons text rest ih =>
    simp only [countToClose]
    split
    · exact ⟨rfl, by simp [fallback]⟩
    · split
      · exact ⟨rfl, by simp⟩
      · exact ih _ _ _ _

theorem MatchesPairs.of_exact {extent : Extent} (hheader : extent.headerEnd = line)
    (houtcome : extent.outcome ∈ [.matched, .unterminated, .ceilingHit])
    (hexact : ∀ stop, extent = ⟨line, stop, .matched⟩ ↔
      rules.ClosesOn opener closer lines start last line count stop) :
    rules.MatchesPairs opener closer lines start last line count extent := by
  obtain ⟨headerEnd, final, outcome⟩ := extent
  obtain rfl : headerEnd = line := hheader
  have hmatched (stop : Nat) : outcome = .matched ∧ final = stop ↔
      rules.ClosesOn opener closer lines start last headerEnd count stop := by
    rw [← hexact stop, Extent.mk.injEq]
    exact ⟨fun h => ⟨rfl, h.2, h.1⟩, fun h => ⟨h.2.2, h.2.1⟩⟩
  refine ⟨rfl, hmatched, fun hnone => ?_⟩
  rcases List.mem_cons.1 houtcome with hfound | hguess
  · exact absurd ⟨final, (hmatched final).1 ⟨hfound, rfl⟩⟩ hnone
  · simpa using hguess

/-- From the end of the line of the opening on, the search for the close is exact. -/
theorem matchesPairs_countToClose (bound : Nat) (hstart : start ≤ line) (hcount : 0 < count) :
    rules.MatchesPairs opener closer lines start last line count
      (rules.countToClose opener closer start line bound (line + 1)
        (rules.lexicon.examinedFrom lines start (line + 1)) (rules.lexicon.stateFrom lines start (line + 1)) count
        (windowOf lines (line + 1) last)) := by
  obtain ⟨hheader, houtcome⟩ := outcome_countToClose rules opener closer start line bound (line + 1)
    (rules.lexicon.examinedFrom lines start (line + 1)) (rules.lexicon.stateFrom lines start (line + 1)) count
    (windowOf lines (line + 1) last)
  refine .of_exact hheader houtcome fun stop => ?_
  have hnone (k : Nat) (hk : line < k) (hk' : k < line + 1) :
      ¬ rules.ReachesZero opener closer lines start line count k := by omega
  exact countToClose_eq_matched_iff hstart (Nat.lt_succ_self line) hnone (by simp) hcount

/-- The search for the opening comes to the line on which the body opens, and goes on from there. -/
theorem OpensOn.findOpener_eq {before after : Text} {index : Nat}
    (hopens : rules.OpensOn opener lines start last line before after)
    (hopener : opener ∉ ['(', ')', '[', ']', ';'])
    (hopen : 0 < 1 + Text.tally (pairValue opener closer) after) (hstart : start ≤ index) (hindex : index ≤ line) :
    rules.findOpener opener closer start (min last (lines.length - 1)) index
        (rules.lexicon.examinedFrom lines start index) (rules.lexicon.stateFrom lines start index)
        (Text.tally parenValue (rules.lexicon.codeFrom lines start start index)) (windowOf lines index last) =
      rules.countToClose opener closer start line (min last (lines.length - 1)) (line + 1)
        (rules.lexicon.examinedFrom lines start (line + 1)) (rules.lexicon.stateFrom lines start (line + 1))
        (1 + Text.tally (pairValue opener closer) after) (windowOf lines (line + 1) last) := by
  have hlast := hopens.line_le
  have hlength := hopens.line_lt
  obtain ⟨hhead, hbefore⟩ := undecided_append.1 hopens.undecided
  induction hgap : line - index generalizing index with
  | zero =>
    obtain rfl : index = line := by omega
    have houtside := hopens.outside
    rw [Int.zero_add] at hbefore
    rw [Text.tally_append] at houtside
    have hwindow := windowOf_eq_cons hlast hlength
    rw [hwindow, findOpener, rules.lexicon.readLine_of_windowOf hwindow, hopens.code_eq,
      HeadScan.foldl_step_opener hopener hbefore houtside]
    simp only [Bool.false_eq_true, if_false, if_true, Int.not_le.2 hopen]
    rw [← rules.lexicon.examinedFrom_succ hstart, ← rules.lexicon.stateFrom_succ hstart hlength]
  | succ gap ih =>
    have hahead : index < line := by omega
    have hcode : Undecided opener rules.terminator
        (Text.tally parenValue (rules.lexicon.codeFrom lines start start index))
        (rules.lexicon.readingFrom lines start index).codeText := by
      have hpart := hhead.of_isPrefix (rules.lexicon.codeFrom_isPrefix (Nat.le_succ_of_le hstart) hahead)
      rw [rules.lexicon.codeFrom_succ hstart, undecided_append, Int.zero_add] at hpart
      exact hpart.2
    have hwindow : windowOf lines index last = lines.getD index [] :: windowOf lines (index + 1) last :=
      windowOf_eq_cons (by omega) (by omega)
    have hcontinues := hopens.continues index hstart hahead
    have hlookahead := hopens.le_lookahead
    have hbelow : ¬ min (start + rules.limits.openerLookahead) (min last (lines.length - 1)) ≤ index := by omega
    rw [hwindow, findOpener, rules.lexicon.readLine_of_windowOf hwindow, HeadScan.foldl_step_undecided hcode,
      ← Text.tally_append, ← rules.lexicon.codeFrom_succ hstart, ← rules.lexicon.stateFrom_succ hstart (by omega)]
    simp only [Bool.false_eq_true, if_false, decide_eq_false hbelow, Bool.false_or, hcontinues, Bool.not_true]
    rw [← rules.lexicon.examinedFrom_succ hstart]
    exact ih (by omega) hahead (by omega)

/-- A search for the opening that ends with a body of several lines, or with a guess, has found an opening. -/
theorem exists_opensOn_of_findOpener {index : Nat} (hopener : opener ∉ ['(', ')', '[', ']', ';'])
    (hstart : start ≤ index) (hindex : index ≤ start + rules.limits.openerLookahead)
    (hcontinues : ∀ k, start ≤ k → k < index →
      headContinues opener (rules.lexicon.stateFrom lines start (k + 1))
        (Text.tally parenValue (rules.lexicon.codeFrom lines start start (k + 1))) (lines.getD k [])
        (windowOf lines (k + 1) last) = true)
    (hhead : Undecided opener rules.terminator 0 (rules.lexicon.codeFrom lines start start index))
    {extent : Extent}
    (hextent : rules.findOpener opener closer start (min last (lines.length - 1)) index
      (rules.lexicon.examinedFrom lines start index) (rules.lexicon.stateFrom lines start index)
      (Text.tally parenValue (rules.lexicon.codeFrom lines start start index)) (windowOf lines index last) = extent)
    (hbody : extent.isDegraded = true ∨ extent.headerEnd < extent.last) :
    ∃ line before after, rules.OpensOn opener lines start last line before after ∧
      0 < 1 + Text.tally (pairValue opener closer) after := by
  induction hwindow : windowOf lines index last generalizing index with
  | nil =>
    obtain rfl : Extent.single start = extent := by rwa [hwindow] at hextent
    simp [Extent.single, Extent.isDegraded] at hbody
  | cons text rest ih =>
    obtain ⟨hlast, hlength, hrest⟩ := of_windowOf_eq_cons hwindow
    rw [hwindow, findOpener, rules.lexicon.readLine_of_windowOf hwindow] at hextent
    rcases undecided_or_first opener rules.terminator
      (Text.tally parenValue (rules.lexicon.codeFrom lines start start index))
      (rules.lexicon.readingFrom lines start index).codeText with
      hcode | ⟨before, c, after, hcode, hbefore, hdecides, hparens⟩
    · -- nothing is decided on this line, so the head goes on or the search gives up
      rw [HeadScan.foldl_step_undecided hcode, ← Text.tally_append, ← rules.lexicon.codeFrom_succ hstart] at hextent
      simp only [Bool.false_eq_true, if_false] at hextent
      split at hextent
      · subst hextent
        simp [Extent.single, Extent.isDegraded] at hbody
      · next hgoes =>
        simp only [Bool.or_eq_true, decide_eq_true_eq, not_or, Bool.not_eq_true', Bool.not_eq_false] at hgoes
        rw [← rules.lexicon.stateFrom_succ hstart hlength, ← hrest] at hgoes hextent
        rw [← rules.lexicon.examinedFrom_succ hstart] at hextent
        rw [← getD_of_windowOf hwindow] at hgoes
        refine ih (by omega) (by omega) (forall_lt_succ hcontinues hgoes.2) ?_ hextent hrest
        rw [rules.lexicon.codeFrom_succ hstart, undecided_append, Int.zero_add]
        exact ⟨hhead, hcode⟩
    · rcases hdecides with rfl | ⟨rfl, hterminator⟩
      · have hopens : rules.OpensOn c lines start last index before after :=
          ⟨hstart, hlast, hlength, hindex, hcontinues, hcode,
            undecided_append.2 ⟨hhead, by rwa [Int.zero_add]⟩, by rwa [Text.tally_append]⟩
        refine ⟨index, before, after, hopens, ?_⟩
        by_contra hclosed
        rw [hcode, HeadScan.foldl_step_opener hopener hbefore hparens] at hextent
        simp only [Bool.false_eq_true, if_false, if_true, Int.not_lt.1 hclosed] at hextent
        subst hextent
        by_cases hfirst : index = start <;> simp [Extent.isDegraded, hfirst] at hbody
      · rw [hcode, if_pos (HeadScan.terminated_foldl_step hterminator hbefore hparens after)] at hextent
        subst hextent
        simp [Extent.isDegraded] at hbody

theorem blockExtent_eq_findOpener (hstyle : rules.style = .braces opener closer) (hlast : start ≤ last)
    (hlength : start < lines.length) :
    rules.blockExtent start (windowOf lines start last) =
      rules.findOpener opener closer start (min last (lines.length - 1)) start
        (rules.lexicon.examinedFrom lines start start) (rules.lexicon.stateFrom lines start start)
        (Text.tally parenValue (rules.lexicon.codeFrom lines start start start)) (windowOf lines start last) := by
  simp only [blockExtent, List.isEmpty_iff, windowOf_ne_nil hlength hlast, if_false, hstyle, braceExtent,
    last_windowOf hlength hlast, Lexicon.examinedFrom_self, Lexicon.stateFrom_self, Lexicon.codeFrom_self,
    Text.tally_nil]

/-- A body that opens on the first line is counted from the net of that line. -/
theorem matchesPairs_openBlockExtent (hstyle : rules.style = .braces opener closer) (hlast : start ≤ last)
    (hlength : start < lines.length)
    (hnet : 0 < Text.tally (pairValue opener closer) (rules.lexicon.readingFrom lines start start).codeText) :
    rules.MatchesPairs opener closer lines start last start
      (Text.tally (pairValue opener closer) (rules.lexicon.readingFrom lines start start).codeText)
      (rules.openBlockExtent start (windowOf lines start last)) := by
  have hwindow := windowOf_eq_cons hlast hlength
  have hseen := mem_of_tally_pairValue_pos hnet
  simp only [openBlockExtent, hstyle]
  rw [hwindow, pairExtent]
  have hreading : rules.lexicon.readLine .code (lines.getD start []) = rules.lexicon.readingFrom lines start start := by
    rw [← rules.lexicon.readLine_of_windowOf hwindow, Lexicon.stateFrom_self]
  have hexamined : (rules.lexicon.readingFrom lines start start).examined =
      rules.lexicon.examinedFrom lines start (start + 1) := by
    rw [rules.lexicon.examinedFrom_succ (Nat.le_refl _), Lexicon.examinedFrom_self, Nat.zero_add]
  rw [hreading]
  simp only [netCount_eq, decide_eq_true hseen, Bool.not_true, Bool.false_or, decide_eq_true_eq, Int.not_le.2 hnet,
    if_false, hexamined]
  rw [← rules.lexicon.stateFrom_succ (Nat.le_refl _) hlength]
  exact matchesPairs_countToClose _ (Nat.le_refl _) hnet

/-- The extent of a body between a pair of characters is exact: once the opening is found, the extent is matched on
the first line on which the count of open pairs over the stream of code is zero, if the search may get there, and a
guess otherwise. The second part is about an opening on the first line, where the count is the net of that line. What
is not code of the language never counts. Sums are unbounded here; `answers_eq` carries this over to words. -/
theorem pairExtents_exact (rules : BlockRules) (opener closer : Char) (lines : List Text) (start last : Nat)
    (hstyle : rules.style = .braces opener closer) (hopener : opener ∉ ['(', ')', '[', ']', ';']) :
    (∀ line before after, rules.OpensOn opener lines start last line before after →
        0 < 1 + Text.tally (pairValue opener closer) after →
        rules.MatchesPairs opener closer lines start last line (1 + Text.tally (pairValue opener closer) after)
          (rules.blockExtent start (windowOf lines start last))) ∧
      ((rules.blockExtent start (windowOf lines start last)).isDegraded = true ∨
          (rules.blockExtent start (windowOf lines start last)).headerEnd <
            (rules.blockExtent start (windowOf lines start last)).last →
        ∃ line before after, rules.OpensOn opener lines start last line before after ∧
          0 < 1 + Text.tally (pairValue opener closer) after) ∧
      (start ≤ last → start < lines.length →
        0 < Text.tally (pairValue opener closer) (rules.lexicon.readingFrom lines start start).codeText →
        rules.MatchesPairs opener closer lines start last start
          (Text.tally (pairValue opener closer) (rules.lexicon.readingFrom lines start start).codeText)
          (rules.openBlockExtent start (windowOf lines start last))) ∧
      ∀ index, ∀ delivered ∈ (rules.lexicon.readingFrom lines start index).code,
        rules.lexicon.IsCodeAt (rules.lexicon.stateFrom lines start index) (lines.getD index []) delivered.1
          delivered.2 := by
  refine ⟨fun line before after hopens hopen => ?_, fun hbody => ?_,
    fun hlast hlength hnet => matchesPairs_openBlockExtent hstyle hlast hlength hnet,
    fun index delivered hmem => Lexicon.isCodeAt_of_mem_readLine hmem⟩
  · have hlast := Nat.le_trans hopens.start_le hopens.line_le
    have hlength := Nat.lt_of_le_of_lt hopens.start_le hopens.line_lt
    rw [blockExtent_eq_findOpener hstyle hlast hlength,
      hopens.findOpener_eq hopener hopen (Nat.le_refl _) hopens.start_le]
    exact matchesPairs_countToClose _ hopens.start_le hopen
  · by_cases hsome : windowOf lines start last = []
    · simp [blockExtent, hsome, Extent.single, Extent.isDegraded] at hbody
    · obtain ⟨text, rest, hwindow⟩ := List.exists_cons_of_ne_nil hsome
      obtain ⟨hlast, hlength, _⟩ := of_windowOf_eq_cons hwindow
      exact exists_opensOn_of_findOpener hopener (Nat.le_refl _) (Nat.le_add_right _ _)
        (fun k hk hk' => by omega) (by rw [Lexicon.codeFrom_self]; exact undecided_nil)
        (blockExtent_eq_findOpener hstyle hlast hlength).symm hbody

/-- A body that opens on the second line, with pairs in a comment and in a literal. -/
def bracedBody : List Text :=
  ["fn a(x: [u8; 2])".toList, "\x7b // \x7b".toList, " \"\x7d\" \x7b".toList, "\x7d \x7d".toList]

theorem opensOn_bracedBody :
    (Language.rust.grammar.blockRules {}).OpensOn '{' bracedBody 0 3 1 [] [' '] where
  start_le := by decide
  line_le := by decide
  line_lt := by decide
  le_lookahead := by decide
  continues k _ hk := by
    obtain rfl : k = 0 := by omega
    decide
  code_eq := by decide
  undecided := by decide
  outside := by decide

theorem pairExtents_exact_bracedBody :
    (Language.rust.grammar.blockRules {}).blockExtent 0 (windowOf bracedBody 0 3) = ⟨1, 3, .matched⟩ ∧
      (Language.rust.grammar.blockRules {}).MatchesPairs '{' '}' bracedBody 0 3 1
        (1 + Text.tally (pairValue '{' '}') [' '])
        ((Language.rust.grammar.blockRules {}).blockExtent 0 (windowOf bracedBody 0 3)) :=
  ⟨by decide, (pairExtents_exact _ '{' '}' bracedBody 0 3 rfl (by decide)).1 1 [] [' '] opensOn_bracedBody
    (by decide)⟩

end BlockRules

end Outline
