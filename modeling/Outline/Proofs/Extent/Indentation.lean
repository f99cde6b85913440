import Mathlib.Data.List.TakeWhile
import Mathlib.Data.Nat.Find
import Outline.Proofs.Extent.Balance
import Outline.Proofs.Extent.Reach
import Outline.Proofs.Lexing.Stream
import Outline.Proofs.Text.Edges

namespace Outline

/-- A line with nothing but white space on it, or with a comment after its white space. -/
def Lexicon.IsIdle (lexicon : Lexicon) (line : Text) : Prop :=
  (∀ c ∈ line, isBlank c = true) ∨ ∃ mark ∈ lexicon.lineComments, mark <+: Text.trimStart line

namespace BlockRules

theorem isIdle_iff {rules : BlockRules} {line : Text} : rules.isIdle line = true ↔ rules.lexicon.IsIdle line := by
  have hblank : Text.trimStart line = [] ↔ ∀ c ∈ line, isBlank c = true := List.dropWhile_eq_nil_iff
  simp only [isIdle, Lexicon.IsIdle, Bool.or_eq_true, List.isEmpty_iff, List.any_eq_true, Text.startsWith_iff,
    hblank]

/-- The brackets opened since line `start` are closed at the end of line `k`, and the reader is in code there. -/
def BalancedOn (rules : BlockRules) (lines : List Text) (start k : Nat) : Prop :=
  Text.tally bracketValue (rules.lexicon.codeFrom lines start start (k + 1)) ≤ 0 ∧
    rules.lexicon.stateFrom lines start (k + 1) = .code

/-- The head ends on line `line`: the first line on which the brackets balance, but not after the last line and
not further than the search for the opening may look. -/
structure HeadEndsOn (rules : BlockRules) (lines : List Text) (start last line : Nat) : Prop where
  start_le : start ≤ line
  le_cap : line ≤ min last (start + rules.limits.openerLookahead)
  balanced_or_cap : rules.BalancedOn lines start line ∨ line = min last (start + rules.limits.openerLookahead)
  first : ∀ k, start ≤ k → k < line → ¬ rules.BalancedOn lines start k

/-- A line after the head that ends the body: it begins in code, has something on it, and is not indented deeper
than the declaration. -/
def OutdentsOn (rules : BlockRules) (lines : List Text) (start line k : Nat) : Prop :=
  rules.lexicon.stateFrom lines (line + 1) k = .code ∧ ¬ rules.lexicon.IsIdle (lines.getD k []) ∧
    indentWidth (lines.getD k []) ≤ indentWidth (lines.getD start [])

/-- A line after the head that belongs to the body by itself: it begins inside a literal or a comment, or has
something on it. -/
def CountsOn (rules : BlockRules) (lines : List Text) (line k : Nat) : Prop :=
  rules.lexicon.stateFrom lines (line + 1) k ≠ .code ∨ ¬ rules.lexicon.IsIdle (lines.getD k [])

/-- The first line after the head that ends the body, or the line after the last. -/
structure StopsOn (rules : BlockRules) (lines : List Text) (start last line stop : Nat) : Prop where
  line_lt : line < stop
  stop_le : stop ≤ last + 1
  outdents_or_end : rules.OutdentsOn lines start line stop ∨ stop = last + 1
  first : ∀ k, line < k → k < stop → ¬ rules.OutdentsOn lines start line k

/-- The last line of the body before line `stop`, or the last line of the head. -/
structure BodyEndsOn (rules : BlockRules) (lines : List Text) (line stop final : Nat) : Prop where
  line_le : line ≤ final
  lt_stop : final < stop
  counts : line < final → rules.CountsOn lines line final
  none_after : ∀ k, final < k → k < stop → ¬ rules.CountsOn lines line k

/-- Some line from `index` up to and with `stop` that a ceiling forbids to look at. -/
def CeilingFrom (rules : BlockRules) (lines : List Text) (start last line stop index : Nat) : Prop :=
  ∃ k, index ≤ k ∧ k ≤ stop ∧ k ≤ last ∧ (start + rules.limits.maxBlockSpan < k ∨
    rules.limits.maxIterations <
      rules.lexicon.examinedFrom lines start (line + 1) + rules.lexicon.examinedFrom lines (line + 1) k)

/-- An extent that follows the indentation of its lines: its head ends on `line`, and unless a ceiling forbids to
look at a line up to and with `stop`, which ends the body, its last line is the last line `final` of the body. -/
structure FollowsIndent (rules : BlockRules) (lines : List Text) (start last line stop final : Nat)
    (extent : Extent) : Prop where
  headEndsOn : rules.HeadEndsOn lines start last line
  stopsOn : rules.StopsOn lines start last line stop
  bodyEndsOn : rules.BodyEndsOn lines line stop final
  headerEnd_eq : extent.headerEnd = line
  ceilingHit_iff : extent.outcome = .ceilingHit ↔ rules.CeilingFrom lines start last line stop (line + 1)
  last_eq : extent.outcome ≠ .ceilingHit → extent.last = final
  singleLine_iff : extent.outcome ≠ .ceilingHit → (extent.outcome = .singleLine ↔ final = start)
  matched_iff : extent.outcome ≠ .ceilingHit → (extent.outcome = .matched ↔ final ≠ start)

variable {rules : BlockRules} {lines : List Text} {start last line stop final : Nat}

theorem exists_stopsOn (rules : BlockRules) (lines : List Text) (start : Nat) (hline : line ≤ last) :
    ∃ stop, rules.StopsOn lines start last line stop := by
  classical
  have hend : ∃ k, line < k ∧ (rules.OutdentsOn lines start line k ∨ k = last + 1) :=
    ⟨last + 1, by omega, .inr rfl⟩
  obtain ⟨hlt, hends⟩ := Nat.find_spec hend
  exact ⟨Nat.find hend, hlt, Nat.find_min' hend ⟨by omega, .inr rfl⟩, hends,
    fun k hk hk' hout => Nat.find_min hend hk' ⟨hk, .inl hout⟩⟩

theorem exists_bodyEndsOn (rules : BlockRules) (lines : List Text) (hstop : line < stop) :
    ∃ final, rules.BodyEndsOn lines line stop final := by
  classical
  let p : Nat → Prop := fun k => k = line ∨ line < k ∧ rules.CountsOn lines line k
  have hline : line ≤ stop - 1 := by omega
  have hspec : p (Nat.findGreatest p (stop - 1)) := Nat.findGreatest_spec hline (.inl rfl)
  have hle := Nat.findGreatest_le (P := p) (stop - 1)
  refine ⟨Nat.findGreatest p (stop - 1), Nat.le_findGreatest hline (.inl rfl), by omega, fun h => ?_,
    fun k hk hk' hcounts => ?_⟩
  · rcases hspec with heq | ⟨_, hcounts⟩
    · omega
    · exact hcounts
  · have hge : line ≤ Nat.findGreatest p (stop - 1) := Nat.le_findGreatest hline (.inl rfl)
    exact Nat.findGreatest_is_greatest hk (by omega) (.inr ⟨by omega, hcounts⟩)

/-- The head of an indented declaration ends where its brackets balance. -/
theorem indentHead_spec (rules : BlockRules) (last : Nat) {index : Nat} (hstart : start ≤ index)
    (hcap : index ≤ min (min last (lines.length - 1)) (start + rules.limits.openerLookahead))
    (hlength : start < lines.length)
    (hopen : ∀ k, start ≤ k → k < index → ¬ rules.BalancedOn lines start k) :
    ∃ line, rules.HeadEndsOn lines start (min last (lines.length - 1)) line ∧
      rules.indentHead start (min last (lines.length - 1)) index (rules.lexicon.examinedFrom lines start index)
          (rules.lexicon.stateFrom lines start index)
          (Text.tally bracketValue (rules.lexicon.codeFrom lines start start index)) (windowOf lines index last) =
        (line, rules.lexicon.examinedFrom lines start (line + 1), windowOf lines (line + 1) last) := by
  induction hwindow : windowOf lines index last generalizing index with
  | nil =>
    have := of_windowOf_eq_nil hwindow
    omega
  | cons text rest ih =>
    obtain ⟨hlast, hindex, hrest⟩ := of_windowOf_eq_cons hwindow
    have hstops : (decide (Text.tally bracketValue (rules.lexicon.codeFrom lines start start (index + 1)) ≤ 0) &&
        (rules.lexicon.readingFrom lines start index).state.inCode ||
          decide (min last (lines.length - 1) ≤ index) || decide (rules.limits.openerLookahead ≤ index - start)) =
            true ↔
        rules.BalancedOn lines start index ∨
          index = min (min last (lines.length - 1)) (start + rules.limits.openerLookahead) := by
      simp only [Bool.or_eq_true, Bool.and_eq_true, decide_eq_true_eq, LexState.inCode_iff, BalancedOn,
        rules.lexicon.stateFrom_succ hstart hindex, or_assoc]
      exact or_congr_right (by omega)
    rw [indentHead, rules.lexicon.readLine_of_windowOf hwindow]
    simp only [foldl_bracketStep]
    rw [← Text.tally_append, ← rules.lexicon.codeFrom_succ hstart, ← rules.lexicon.examinedFrom_succ hstart]
    by_cases hends : rules.BalancedOn lines start index ∨
        index = min (min last (lines.length - 1)) (start + rules.limits.openerLookahead)
    · rw [if_pos (hstops.2 hends)]
      exact ⟨index, ⟨hstart, hcap, hends, hopen⟩, by rw [hrest]⟩
    · rw [if_neg (mt hstops.1 hends), ← rules.lexicon.stateFrom_succ hstart hindex]
      obtain ⟨hunbalanced, hbelow⟩ := not_or.1 hends
      exact ih (by omega) (by omega) (forall_lt_succ hopen hunbalanced) hrest

/-- Two last lines of the body before the same line are the same. -/
theorem BodyEndsOn.unique {other : Nat} (hends : rules.BodyEndsOn lines line stop final)
    (hother : rules.BodyEndsOn lines line stop other) : final = other := by
  have hline := hends.line_le
  have hline' := hother.line_le
  rcases Nat.lt_trichotomy final other with hlt | heq | hlt
  · exact absurd (hother.counts (by omega)) (hends.none_after other hlt hother.lt_stop)
  · exact heq
  · exact absurd (hends.counts (by omega)) (hother.none_after final hlt hends.lt_stop)

theorem BodyEndsOn.succ_of_counts {index : Nat} (hindex : line < index) (hcounts : rules.CountsOn lines line index) :
    rules.BodyEndsOn lines line (index + 1) index :=
  ⟨Nat.le_of_lt hindex, Nat.lt_succ_self _, fun _ => hcounts, fun k hk hk' => by omega⟩

theorem BodyEndsOn.succ_of_not_counts {index : Nat} (hends : rules.BodyEndsOn lines line index final)
    (hidle : ¬ rules.CountsOn lines line index) : rules.BodyEndsOn lines line (index + 1) final :=
  ⟨hends.line_le, Nat.lt_succ_of_lt hends.lt_stop, hends.counts, forall_lt_succ hends.none_after hidle⟩

theorem StopsOn.lt_of_not_outdents {index : Nat} (hstop : rules.StopsOn lines start last line stop)
    (hle : index ≤ stop) (hlast : index ≤ last) (hinside : ¬ rules.OutdentsOn lines start line index) :
    index < stop := by
  refine Nat.lt_of_le_of_ne hle ?_
  rintro rfl
  rcases hstop.outdents_or_end with hout | hend
  · exact hinside hout
  · omega

/-- A line that no ceiling forbids to look at takes nothing from the ceilings that lie ahead. -/
theorem ceilingFrom_succ_iff {index : Nat}
    (hbelow : ¬ rules.exceeds start index (rules.lexicon.examinedFrom lines start (line + 1) +
      rules.lexicon.examinedFrom lines (line + 1) index) = true) :
    rules.CeilingFrom lines start last line stop (index + 1) ↔
      rules.CeilingFrom lines start last line stop index := by
  rw [exceeds_iff] at hbelow
  constructor
  · rintro ⟨k, hk, hstop, hlast, hceiling⟩
    exact ⟨k, by omega, hstop, hlast, hceiling⟩
  · rintro ⟨k, hk, hstop, hlast, hceiling⟩
    refine ⟨k, Nat.lt_of_le_of_ne hk ?_, hstop, hlast, hceiling⟩
    rintro rfl
    exact hbelow hceiling

open Classical in
/-- The search follows the body up to the line that ends it, unless a ceiling comes first. -/
theorem indentBody_eq {index reached : Nat}
    (hstop : rules.StopsOn lines start (min last (lines.length - 1)) line stop)
    (hfinal : rules.BodyEndsOn lines line stop final) (hindex : line < index) (hle : index ≤ stop)
    (hreached : rules.BodyEndsOn lines line index reached) :
    rules.indentBody start line (min last (lines.length - 1)) (indentWidth (lines.getD start [])) index
        (rules.lexicon.examinedFrom lines start (line + 1) + rules.lexicon.examinedFrom lines (line + 1) index)
        reached (rules.lexicon.stateFrom lines (line + 1) index) (windowOf lines index last) =
      if rules.CeilingFrom lines start (min last (lines.length - 1)) line stop index then
        rules.fallback start (min last (lines.length - 1)) line .ceilingHit
      else closeIndent start line final := by
  induction hwindow : windowOf lines index last generalizing index reached with
  | nil =>
    have hstopLe := hstop.stop_le
    have hnil := of_windowOf_eq_nil hwindow
    have hnone : ¬ rules.CeilingFrom lines start (min last (lines.length - 1)) line stop index := by
      rintro ⟨k, hk, _, hlast, _⟩
      omega
    obtain rfl : index = stop := by omega
    rw [if_neg hnone, indentBody, hreached.unique hfinal]
  | cons text rest ih =>
    obtain ⟨hlast, hlength, hrest⟩ := of_windowOf_eq_cons hwindow
    have hbound : index ≤ min last (lines.length - 1) := by omega
    have hline := getD_of_windowOf hwindow
    rw [indentBody, rules.lexicon.readLine_of_windowOf hwindow]
    by_cases hexceeds : rules.exceeds start index (rules.lexicon.examinedFrom lines start (line + 1) +
        rules.lexicon.examinedFrom lines (line + 1) index) = true
    · rw [if_pos hexceeds, if_pos ⟨index, Nat.le_refl _, hle, hbound, exceeds_iff.1 hexceeds⟩]
    rw [if_neg hexceeds]
    simp only [← ceilingFrom_succ_iff hexceeds]
    rw [Nat.add_assoc, ← rules.lexicon.examinedFrom_succ hindex, ← rules.lexicon.stateFrom_succ hindex hlength]
    by_cases hcode : rules.lexicon.stateFrom lines (line + 1) index = .code
    · simp only [hcode, LexState.inCode, Bool.not_true, Bool.false_eq_true, if_false]
      by_cases hidle : rules.lexicon.IsIdle text
      · have hskips : ¬ rules.CountsOn lines line index :=
          fun hcounts => hcounts.elim (· hcode) (· (hline ▸ hidle))
        have hlt := hstop.lt_of_not_outdents hle hbound fun hout => hout.2.1 (hline ▸ hidle)
        rw [if_pos (isIdle_iff.2 hidle)]
        exact ih (by omega) hlt (hreached.succ_of_not_counts hskips) hrest
      · rw [if_neg (mt isIdle_iff.1 hidle)]
        by_cases hwidth : indentWidth text ≤ indentWidth (lines.getD start [])
        · -- the line ends the body, and nothing is left to look at
          have hout : rules.OutdentsOn lines start line index := ⟨hcode, hline ▸ hidle, hline ▸ hwidth⟩
          obtain rfl : index = stop := Nat.le_antisymm hle (Nat.not_lt.1 fun hlt => hstop.first index hindex hlt hout)
          have hnone : ¬ rules.CeilingFrom lines start (min last (lines.length - 1)) line index (index + 1) := by
            rintro ⟨k, hk, hk', _⟩
            omega
          rw [if_pos hwidth, if_neg hnone, hreached.unique hfinal]
        · have hlt := hstop.lt_of_not_outdents hle hbound fun hout => hwidth (hline ▸ hout.2.2)
          rw [if_neg hwidth]
          exact ih (by omega) hlt (.succ_of_counts hindex (.inr (hline ▸ hidle))) hrest
    · have hlt := hstop.lt_of_not_outdents hle hbound fun hout => hcode hout.1
      rw [if_pos (by simpa using mt LexState.inCode_iff.1 hcode)]
      exact ih (by omega) hlt (.succ_of_counts hindex (.inl hcode)) hrest

theorem blockExtent_eq_indentBody (hstyle : rules.style = .indent) (hlast : start ≤ last)
    (hlength : start < lines.length) :
    ∃ line, rules.HeadEndsOn lines start (min last (lines.length - 1)) line ∧
      rules.blockExtent start (windowOf lines start last) =
        rules.indentBody start line (min last (lines.length - 1)) (indentWidth (lines.getD start [])) (line + 1)
          (rules.lexicon.examinedFrom lines start (line + 1)) line .code (windowOf lines (line + 1) last) := by
  have hbase : (windowOf lines start last).headD [] = lines.getD start [] := by
    rw [windowOf_eq_cons hlast hlength, List.headD_cons]
  obtain ⟨line, hhead, heq⟩ := indentHead_spec rules last (Nat.le_refl start) (by omega) hlength
    fun k hk hk' => by omega
  simp only [Lexicon.examinedFrom_self, Lexicon.stateFrom_self, Lexicon.codeFrom_self, Text.tally_nil] at heq
  refine ⟨line, hhead, ?_⟩
  simp only [blockExtent, List.isEmpty_iff, windowOf_ne_nil hlength hlast, if_false, hstyle, indentExtent,
    last_windowOf hlength hlast, hbase, heq]

/-- The extent of a declaration with an indented body is exact: its head ends on the first line on which its brackets
balance in code, and its body on the last line with something on it before one that is not indented deeper. Nothing is
assumed of the marks, the limits and the lines. Sums are unbounded here; `answers_eq` carries this over to words. -/
theorem indentExtents_exact (rules : BlockRules) (lines : List Text) (start last : Nat)
    (hstyle : rules.style = .indent) (hlast : start ≤ last) (hlength : start < lines.length) :
    ∃ line stop final, rules.FollowsIndent lines start (min last (lines.length - 1)) line stop final
      (rules.blockExtent start (windowOf lines start last)) := by
  obtain ⟨line, hhead, hextent⟩ := blockExtent_eq_indentBody hstyle hlast hlength
  have hcap := hhead.le_cap
  obtain ⟨stop, hstop⟩ := exists_stopsOn rules lines start (show line ≤ min last (lines.length - 1) by omega)
  obtain ⟨final, hfinal⟩ := exists_bodyEndsOn rules lines hstop.line_lt
  have hheader : rules.BodyEndsOn lines line (line + 1) line :=
    ⟨Nat.le_refl _, Nat.lt_succ_self _, fun h => absurd h (Nat.lt_irrefl _), fun k hk hk' => by omega⟩
  have hbody := indentBody_eq hstop hfinal (Nat.lt_succ_self line) hstop.line_lt hheader
  simp only [Lexicon.examinedFrom_self, Nat.add_zero, Lexicon.stateFrom_self, ← hextent] at hbody
  refine ⟨line, stop, final, ?_⟩
  rw [hbody]
  split
  · next hceiling =>
    exact ⟨hhead, hstop, hfinal, rfl, iff_of_true rfl hceiling, fun h => absurd rfl h, fun h => absurd rfl h,
      fun h => absurd rfl h⟩
  · next hbelow =>
    refine ⟨hhead, hstop, hfinal, rfl, iff_of_false ?_ hbelow, fun _ => rfl, fun _ => ?_, fun _ => ?_⟩ <;>
      by_cases hfirst : final = start <;> simp [closeIndent, hfirst]

/-- A head of two lines, a literal that goes back to the margin, and idle lines behind the body. -/
def indentedBody : List Text :=
  ["def f(".toList, "    a):".toList, "    s = \"\"\"".toList, "text".toList, "\"\"\"".toList, "".toList,
    "  # c".toList, "x = 1".toList]

theorem indentExtents_exact_indentedBody :
    (Language.python.grammar.blockRules {}).blockExtent 0 (windowOf indentedBody 0 7) = ⟨1, 4, .matched⟩ ∧
      ∃ line stop final, (Language.python.grammar.blockRules {}).FollowsIndent indentedBody 0
        (min 7 (indentedBody.length - 1)) line stop final
        ((Language.python.grammar.blockRules {}).blockExtent 0 (windowOf indentedBody 0 7)) :=
  ⟨by decide, indentExtents_exact _ indentedBody 0 7 rfl (by decide) (by decide)⟩

end BlockRules

end Outline
