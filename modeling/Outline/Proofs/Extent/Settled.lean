import Outline.Proofs.Extent.Bounds

namespace Outline

/-- `raised` lets every search go at least as far as `limits` does. The opening of a body is looked for
equally far, and nothing is said of the guess. -/
structure SearchLimits.RaisedTo (limits raised : SearchLimits) : Prop where
  openerLookahead_eq : raised.openerLookahead = limits.openerLookahead
  maxBlockSpan_le : limits.maxBlockSpan ≤ raised.maxBlockSpan
  maxIterations_le : limits.maxIterations ≤ raised.maxIterations

/-- `raised` lets a scan search, nest and go on at least as far as `limits` does. -/
structure Limits.RaisedTo (limits raised : Limits) : Prop extends
    SearchLimits.RaisedTo limits.toSearchLimits raised.toSearchLimits where
  maxDepth_le : limits.maxDepth ≤ raised.maxDepth
  maxDeclarations_le : limits.maxDeclarations ≤ raised.maxDeclarations

theorem Limits.RaisedTo.refl (limits : Limits) : limits.RaisedTo limits :=
  ⟨⟨rfl, Nat.le_refl _, Nat.le_refl _⟩, Nat.le_refl _, Nat.le_refl _⟩

namespace BlockRules

/-- The same rules under higher ceilings. -/
structure RaisedTo (rules raised : BlockRules) : Prop where
  lexicon_eq : raised.lexicon = rules.lexicon
  style_eq : raised.style = rules.style
  terminator_eq : raised.terminator = rules.terminator
  limits_raised : rules.limits.RaisedTo raised.limits

variable {rules raised : BlockRules} {start last last' headerEnd : Nat}

theorem RaisedTo.not_exceeds (hraise : rules.RaisedTo raised) {index iterations : Nat}
    (hbelow : ¬ rules.exceeds start index iterations = true) :
    ¬ raised.exceeds start index iterations = true := by
  obtain ⟨_, hspan, hiterations⟩ := hraise.limits_raised
  simp only [exceeds, Bool.or_eq_true, decide_eq_true_eq] at hbelow ⊢
  omega

theorem countToClose_settled (hraise : rules.RaisedTo raised) {opener closer : Char}
    {index iterations : Nat} {state : LexState} {depth : Int} {lines : List Text} (n : Nat)
    (hfound : (rules.countToClose opener closer start headerEnd last index iterations state depth
      lines).isDegraded = false)
    (hlast : (rules.countToClose opener closer start headerEnd last index iterations state depth
      lines).last < index + n) :
    raised.countToClose opener closer start headerEnd last' index iterations state
        depth (lines.take n) =
      rules.countToClose opener closer start headerEnd last index iterations state depth lines := by
  induction lines generalizing index iterations state depth n with
  | nil => simp [countToClose, fallback, Extent.isDegraded] at hfound
  | cons line rest ih =>
    simp only [countToClose] at hfound hlast ⊢
    by_cases hexceeds : rules.exceeds start index iterations = true
    · simp [hexceeds, fallback, Extent.isDegraded] at hfound
    rw [if_neg hexceeds] at hfound hlast ⊢
    cases n with
    | zero =>
      -- Nothing is left of the window, so the end cannot have been found on this line.
      split at hlast
      · simp at hlast
      · next hopen =>
        rw [if_neg hopen] at hfound ⊢
        exact ih 0 hfound (by omega)
    | succ n =>
      rw [List.take_succ_cons, countToClose, if_neg (hraise.not_exceeds hexceeds), hraise.lexicon_eq]
      split at hlast
      · next hclosed => simp only [hclosed, if_true]
      · next hopen =>
        rw [if_neg hopen] at hfound
        simp only [hopen]
        exact ih n hfound (by omega)

theorem headContinues_take {opener : Char} {state : LexState} {parens : Int} {line : Text} {n : Nat}
    (hsome : 0 < n) (following : List Text) :
    headContinues opener state parens line (following.take n) =
      headContinues opener state parens line following := by
  cases following with
  | nil => simp
  | cons next rest =>
    obtain ⟨n, rfl⟩ := Nat.exists_eq_succ_of_ne_zero (Nat.ne_of_gt hsome)
    rfl

theorem le_last_countToClose {opener closer : Char} {index iterations : Nat} {state : LexState}
    {depth : Int} {lines : List Text} (hheader : headerEnd < index) :
    headerEnd ≤ (rules.countToClose opener closer start headerEnd last index iterations state depth
      lines).last := by
  induction lines generalizing index iterations state depth with
  | nil => exact Nat.le_max_right _ _
  | cons line rest ih =>
    simp only [countToClose]
    split
    · exact Nat.le_max_right _ _
    · split
      · exact Nat.le_of_lt hheader
      · exact ih (by omega)

/-- A search for the opening that answers with a line before the one it stands on has given up. -/
theorem findOpener_eq_single {opener closer : Char} {index iterations : Nat} {state : LexState}
    {parens : Int} {lines : List Text} (hindex : start ≤ index) (hlines : index + lines.length = last + 1)
    (hbefore : (rules.findOpener opener closer start last index iterations state parens lines).last <
      index) :
    rules.findOpener opener closer start last index iterations state parens lines = .single start := by
  induction lines generalizing index iterations state parens with
  | nil => rfl
  | cons line rest ih =>
    rw [List.length_cons] at hlines
    simp only [findOpener] at hbefore ⊢
    split at hbefore
    · simp at hbefore
    · next hrunning =>
      rw [if_neg hrunning]
      split at hbefore
      · split at hbefore
        · simp at hbefore
        · -- The count goes on from the line of the opening, so it cannot end before it.
          exact absurd hbefore (Nat.not_lt.2 (le_last_countToClose (Nat.lt_succ_self index)))
      · next hclosed =>
        rw [if_neg hclosed]
        split at hbefore
        · next hstop => rw [if_pos hstop]
        · next hgoes =>
          rw [if_neg hgoes]
          exact ih (by omega) (by omega) (by omega)

theorem findOpener_settled (hraise : rules.RaisedTo raised) {opener closer : Char}
    {index iterations : Nat} {state : LexState} {parens : Int} {lines : List Text} (n : Nat)
    (hindex : start ≤ index) (hlines : index + lines.length = last + 1) (hshort : n ≤ lines.length)
    (hcut : index + n = last' + 1)
    (hfound : (rules.findOpener opener closer start last index iterations state parens
      lines).isDegraded = false)
    (hlast : (rules.findOpener opener closer start last index iterations state parens lines).last <
      index + n) :
    raised.findOpener opener closer start last' index iterations state parens (lines.take n) =
      rules.findOpener opener closer start last index iterations state parens lines := by
  induction lines generalizing index iterations state parens n with
  | nil =>
    rw [List.take_nil]
    rfl
  | cons line rest ih =>
    cases n with
    | zero => exact (findOpener_eq_single hindex hlines hlast).symm
    | succ n =>
      rw [List.length_cons] at hlines hshort
      rw [List.take_succ_cons, findOpener, hraise.lexicon_eq, hraise.terminator_eq,
        hraise.limits_raised.openerLookahead_eq]
      simp only [findOpener] at hfound hlast ⊢
      split at hlast
      · next hterminated => rw [if_pos hterminated, if_pos hterminated]
      · next hrunning =>
        rw [if_neg hrunning] at hfound
        rw [if_neg hrunning, if_neg hrunning]
        split at hlast
        · next hopened =>
          rw [if_pos hopened] at hfound
          rw [if_pos hopened, if_pos hopened]
          split at hlast
          · next hflat => rw [if_pos hflat, if_pos hflat]
          · next hdeep =>
            rw [if_neg hdeep] at hfound
            rw [if_neg hdeep, if_neg hdeep]
            exact countToClose_settled hraise n hfound (by omega)
        · next hunopened =>
          rw [if_neg hunopened] at hfound
          rw [if_neg hunopened, if_neg hunopened]
          by_cases hnone : n = 0
          · -- The shorter window ends here, where the longer search has given up sooner or later.
            have hgiveUp : (decide (min (start + rules.limits.openerLookahead) last' ≤ index)) = true := by
              rw [decide_eq_true_eq]
              omega
            simp only [hgiveUp, Bool.true_or, if_true]
            split at hlast
            · next hstop => rw [if_pos hstop]
            · next hgoes =>
              rw [if_neg hgoes]
              exact (findOpener_eq_single (by omega) (by omega) (by omega)).symm
          · have hlimit : min (start + rules.limits.openerLookahead) last' ≤ index ↔
                min (start + rules.limits.openerLookahead) last ≤ index := by omega
            simp only [hlimit, headContinues_take (Nat.pos_of_ne_zero hnone)]
            split at hlast
            · next hstop => rw [if_pos hstop, if_pos hstop]
            · next hgoes =>
              rw [if_neg hgoes] at hfound
              rw [if_neg hgoes, if_neg hgoes]
              exact ih n (by omega) (by omega) (by omega) (by omega) hfound (by omega)

/-- The head of an indented declaration is the same for a window that ends at or after it, and fewer
lines are left. -/
theorem indentHead_settled (hraise : rules.RaisedTo raised) {index iterations : Nat} {state : LexState}
    {brackets : Int} {lines : List Text} (n : Nat) (hlines : index + lines.length = last + 1)
    (hshort : n ≤ lines.length) (hcut : index + n = last' + 1)
    (hhead : (rules.indentHead start last index iterations state brackets lines).1 < index + n) :
    raised.indentHead start last' index iterations state brackets (lines.take n) =
      ((rules.indentHead start last index iterations state brackets lines).1,
        (rules.indentHead start last index iterations state brackets lines).2.1,
        (rules.indentHead start last index iterations state brackets lines).2.2.take
          (last' - (rules.indentHead start last index iterations state brackets lines).1)) := by
  induction lines generalizing index iterations state brackets n with
  | nil =>
    rw [List.length_nil] at hshort
    simp only [indentHead] at hhead
    omega
  | cons line rest ih =>
    obtain ⟨hle, _⟩ := indentHead_bounds rules start index iterations state brackets hlines
      (List.cons_ne_nil line rest)
    obtain ⟨n, rfl⟩ : ∃ m, n = m + 1 := ⟨n - 1, by omega⟩
    rw [List.length_cons] at hlines hshort
    rw [List.take_succ_cons, indentHead, hraise.lexicon_eq, hraise.limits_raised.openerLookahead_eq]
    simp only [indentHead] at hhead ⊢
    by_cases hnone : n = 0
    · subst hnone
      have hend : decide (last' ≤ index) = true := decide_eq_true (by omega)
      simp only [hend, Bool.or_true, Bool.true_or, if_true]
      split at hhead
      · next hstop => rw [if_pos hstop, Nat.sub_eq_zero_of_le (by omega), List.take_zero]
      · next hgoes =>
        have hmore : rest ≠ [] := by
          rintro rfl
          simp only [Bool.or_eq_true, decide_eq_true_eq, not_or] at hgoes
          rw [List.length_nil] at hlines
          omega
        exact absurd hhead (Nat.not_lt.2 (indentHead_bounds _ _ _ _ _ _ (by omega) hmore).1)
    · have hlimit : last' ≤ index ↔ last ≤ index := by omega
      simp only [hlimit]
      split at hhead
      · next hstop =>
        have hleft : last' - index = n := by omega
        rw [if_pos hstop, if_pos hstop, hleft]
      · next hgoes =>
        rw [if_neg hgoes, if_neg hgoes]
        exact ih n (by omega) (by omega) (by omega) (by omega)

theorem reached_le_indentBody {base index iterations reached : Nat} {state : LexState}
    {lines : List Text} (hreached : reached < index)
    (hfound : (rules.indentBody start headerEnd last base index iterations reached state
      lines).isDegraded = false) :
    reached ≤ (rules.indentBody start headerEnd last base index iterations reached state lines).last := by
  induction lines generalizing index iterations reached state with
  | nil => exact Nat.le_refl _
  | cons line rest ih =>
    simp only [indentBody] at hfound ⊢
    by_cases hexceeds : rules.exceeds start index iterations = true
    · simp [hexceeds, fallback, Extent.isDegraded] at hfound
    rw [if_neg hexceeds] at hfound ⊢
    split at hfound
    · next hstring =>
      rw [if_pos hstring]
      exact Nat.le_trans (Nat.le_of_lt hreached) (ih (Nat.lt_succ_self _) hfound)
    · next hcode =>
      rw [if_neg hcode]
      split at hfound
      · next hidle =>
        rw [if_pos hidle]
        exact ih (by omega) hfound
      · next hbusy =>
        rw [if_neg hbusy]
        split at hfound
        · next hout =>
          rw [if_pos hout]
          exact Nat.le_refl _
        · next hin =>
          rw [if_neg hin]
          exact Nat.le_trans (Nat.le_of_lt hreached) (ih (Nat.lt_succ_self _) hfound)

/-- A body that was followed past its last line ends where it had been reached before. -/
theorem indentBody_eq_closeIndent {base index iterations reached : Nat} {state : LexState}
    {lines : List Text}
    (hfound : (rules.indentBody start headerEnd last base index iterations reached state
      lines).isDegraded = false)
    (hbefore : (rules.indentBody start headerEnd last base index iterations reached state lines).last <
      index) :
    rules.indentBody start headerEnd last base index iterations reached state lines =
      closeIndent start headerEnd reached := by
  induction lines generalizing index iterations reached state with
  | nil => rfl
  | cons line rest ih =>
    simp only [indentBody] at hfound hbefore ⊢
    by_cases hexceeds : rules.exceeds start index iterations = true
    · simp [hexceeds, fallback, Extent.isDegraded] at hfound
    rw [if_neg hexceeds] at hfound hbefore ⊢
    split at hbefore
    · next hstring =>
      rw [if_pos hstring] at hfound
      exact absurd hbefore (Nat.not_lt.2 (reached_le_indentBody (Nat.lt_succ_self _) hfound))
    · next hcode =>
      rw [if_neg hcode] at hfound ⊢
      split at hbefore
      · next hidle =>
        rw [if_pos hidle] at hfound ⊢
        exact ih hfound (by omega)
      · next hbusy =>
        rw [if_neg hbusy] at hfound ⊢
        split at hbefore
        · next hout => rw [if_pos hout]
        · next hin =>
          rw [if_neg hin] at hfound
          exact absurd hbefore (Nat.not_lt.2 (reached_le_indentBody (Nat.lt_succ_self _) hfound))

theorem indentBody_settled (hraise : rules.RaisedTo raised) {base index iterations reached : Nat}
    {state : LexState} {lines : List Text} (n : Nat)
    (hfound : (rules.indentBody start headerEnd last base index iterations reached state
      lines).isDegraded = false)
    (hlast : (rules.indentBody start headerEnd last base index iterations reached state lines).last <
      index + n) :
    raised.indentBody start headerEnd last' base index iterations reached state (lines.take n) =
      rules.indentBody start headerEnd last base index iterations reached state lines := by
  induction lines generalizing index iterations reached state n with
  | nil =>
    rw [List.take_nil]
    rfl
  | cons line rest ih =>
    cases n with
    | zero => exact (indentBody_eq_closeIndent hfound hlast).symm
    | succ n =>
      have hisIdle : raised.isIdle line = rules.isIdle line := by simp only [isIdle, hraise.lexicon_eq]
      rw [List.take_succ_cons, indentBody, hraise.lexicon_eq, hisIdle]
      simp only [indentBody] at hfound hlast ⊢
      by_cases hexceeds : rules.exceeds start index iterations = true
      · simp [hexceeds, fallback, Extent.isDegraded] at hfound
      rw [if_neg hexceeds] at hfound hlast ⊢
      rw [if_neg (hraise.not_exceeds hexceeds)]
      split at hlast
      · next hstring =>
        rw [if_pos hstring] at hfound
        rw [if_pos hstring, if_pos hstring]
        exact ih n hfound (by omega)
      · next hcode =>
        rw [if_neg hcode] at hfound
        rw [if_neg hcode, if_neg hcode]
        split at hlast
        · next hidle =>
          rw [if_pos hidle] at hfound
          rw [if_pos hidle, if_pos hidle]
          exact ih n hfound (by omega)
        · next hbusy =>
          rw [if_neg hbusy] at hfound
          rw [if_neg hbusy, if_neg hbusy]
          split at hlast
          · next hout => rw [if_pos hout, if_pos hout]
          · next hin =>
            rw [if_neg hin] at hfound
            rw [if_neg hin, if_neg hin]
            exact ih n hfound (by omega)

theorem keywordBody_settled (hraise : rules.RaisedTo raised) {index iterations : Nat} {state : LexState}
    {depth brackets : Nat} {previous : Text} {lines : List Text} (n : Nat) (hindex : start ≤ index)
    (hfound : (rules.keywordBody start last index iterations state depth brackets previous
      lines).isDegraded = false)
    (hlast : (rules.keywordBody start last index iterations state depth brackets previous lines).last <
      index + n) :
    raised.keywordBody start last' index iterations state depth brackets previous (lines.take n) =
      rules.keywordBody start last index iterations state depth brackets previous lines := by
  induction lines generalizing index iterations state depth brackets previous n with
  | nil => simp [keywordBody, fallback, Extent.isDegraded] at hfound
  | cons line rest ih =>
    simp only [keywordBody] at hfound hlast ⊢
    by_cases hexceeds : rules.exceeds start index iterations = true
    · simp [hexceeds, fallback, Extent.isDegraded] at hfound
    rw [if_neg hexceeds] at hfound hlast ⊢
    cases n with
    | zero =>
      split at hlast
      · split at hlast
        · next hfirst => simp [Extent.single, hfirst] at hlast
        · simp at hlast
      · next hopen =>
        rw [if_neg hopen] at hfound ⊢
        exact ih 0 (by omega) hfound (by omega)
    | succ n =>
      rw [List.take_succ_cons, keywordBody, if_neg (hraise.not_exceeds hexceeds), hraise.lexicon_eq]
      split at hlast
      · next hclosed => rw [if_pos hclosed, if_pos hclosed]
      · next hopen =>
        rw [if_neg hopen] at hfound
        rw [if_neg hopen, if_neg hopen]
        exact ih n (by omega) hfound (by omega)

theorem statementBody_settled (hraise : rules.RaisedTo raised) {index iterations : Nat}
    {state : LexState} {balance : Int} {lines : List Text} (n : Nat)
    (hfound : (rules.statementBody start last index iterations state balance lines).isDegraded = false)
    (hlast : (rules.statementBody start last index iterations state balance lines).last < index + n) :
    raised.statementBody start last' index iterations state balance (lines.take n) =
      rules.statementBody start last index iterations state balance lines := by
  induction lines generalizing index iterations state balance n with
  | nil => simp [statementBody, fallback, Extent.isDegraded] at hfound
  | cons line rest ih =>
    simp only [statementBody] at hfound hlast ⊢
    by_cases hexceeds : rules.exceeds start index iterations = true
    · simp [hexceeds, fallback, Extent.isDegraded] at hfound
    rw [if_neg hexceeds] at hfound hlast ⊢
    cases n with
    | zero =>
      split at hlast
      · simp at hlast
      · next hopen =>
        rw [if_neg hopen] at hfound ⊢
        exact ih 0 hfound (by omega)
    | succ n =>
      rw [List.take_succ_cons, statementBody, if_neg (hraise.not_exceeds hexceeds), hraise.lexicon_eq,
        hraise.terminator_eq]
      split at hlast
      · next hends => rw [if_pos hends, if_pos hends]
      · next hopen =>
        rw [if_neg hopen] at hfound
        rw [if_neg hopen, if_neg hopen]
        exact ih n hfound (by omega)

theorem indentExtent_settled (hraise : rules.RaisedTo raised) {window : List Text} {n : Nat}
    (hsome : 0 < n) (hshort : n ≤ window.length)
    (hfound : (rules.indentExtent start window).isDegraded = false)
    (hlast : (rules.indentExtent start window).last < start + n) :
    raised.indentExtent start (window.take n) = rules.indentExtent start window := by
  have hbase : (window.take n).headD [] = window.headD [] := by
    cases window with
    | nil => rw [List.take_nil]
    | cons line rest =>
      obtain ⟨n, rfl⟩ := Nat.exists_eq_succ_of_ne_zero (Nat.ne_of_gt hsome)
      rfl
  have hlength : (window.take n).length = n := List.length_take_of_le hshort
  simp only [indentExtent] at hfound hlast ⊢
  rw [hbase, hlength]
  have hhead := Nat.lt_of_le_of_lt (reached_le_indentBody (Nat.lt_succ_self _) hfound) hlast
  rw [indentHead_settled hraise n (by omega) hshort (by omega) hhead]
  have hroom : start + n ≤ (rules.indentHead start (start + window.length - 1) start 0 .code 0 window).1 + 1 +
      (start + n - 1 - (rules.indentHead start (start + window.length - 1) start 0 .code 0 window).1) := by
    omega
  exact indentBody_settled hraise _ hfound (Nat.lt_of_lt_of_le hlast hroom)

/-- A body whose end was found ends on the same line under higher ceilings and in any window that holds
that line. -/
theorem blockExtent_settled (hraise : rules.RaisedTo raised) {window : List Text} {n : Nat}
    (hsome : 0 < n) (hshort : n ≤ window.length)
    (hfound : (rules.blockExtent start window).isDegraded = false)
    (hlast : (rules.blockExtent start window).last < start + n) :
    raised.blockExtent start (window.take n) = rules.blockExtent start window := by
  have hlength : (window.take n).length = n := List.length_take_of_le hshort
  have hwindow : window ≠ [] := List.ne_nil_of_length_pos (by omega)
  have htake : window.take n ≠ [] := List.ne_nil_of_length_pos (by omega)
  simp only [blockExtent, List.isEmpty_iff, hwindow, htake, if_false, hraise.style_eq] at hfound hlast ⊢
  cases hstyle : rules.style with
  | braces opener closer =>
    simp only [hstyle, braceExtent] at hfound hlast ⊢
    exact findOpener_settled hraise n (Nat.le_refl _) (by omega) hshort (by omega) hfound hlast
  | indent =>
    simp only [hstyle] at hfound hlast ⊢
    exact indentExtent_settled hraise hsome hshort hfound hlast
  | keyword =>
    simp only [hstyle, keywordExtent] at hfound hlast ⊢
    exact keywordBody_settled hraise n (Nat.le_refl _) hfound hlast

end BlockRules

namespace Grammar

theorem blockRules_raisedTo (grammar : Grammar) {limits raised : Limits} (hraise : limits.RaisedTo raised) :
    (grammar.blockRules limits).RaisedTo (grammar.blockRules raised) :=
  ⟨rfl, rfl, rfl, hraise.toRaisedTo⟩

/-- The extent of a declaration that was found is the same under higher ceilings and in any window that
holds all of its lines. -/
theorem extent_settled (grammar : Grammar) {limits raised : Limits} (hraise : limits.RaisedTo raised)
    {body : Body} {index n : Nat} {window : List Text} (hsome : 0 < n) (hshort : n ≤ window.length)
    (hfound : (grammar.extent limits body index window).isDegraded = false)
    (hlast : (grammar.extent limits body index window).last < index + n) :
    grammar.extent raised body index (window.take n) = grammar.extent limits body index window := by
  have hrules := grammar.blockRules_raisedTo hraise
  cases body with
  | block => exact BlockRules.blockExtent_settled hrules hsome hshort hfound hlast
  | statement =>
    have hlength : (window.take n).length = n := List.length_take_of_le hshort
    have hwindow : window ≠ [] := List.ne_nil_of_length_pos (by omega)
    have htake : window.take n ≠ [] := List.ne_nil_of_length_pos (by omega)
    simp only [extent, BlockRules.statementExtent, List.isEmpty_iff, hwindow, htake, if_false] at hfound hlast ⊢
    exact BlockRules.statementBody_settled hrules n hfound hlast
  | line => rfl

end Grammar

end Outline
