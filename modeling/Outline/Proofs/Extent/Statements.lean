import Outline.Proofs.Extent.Balance
import Outline.Proofs.Extent.Reach
import Outline.Proofs.Lexing.Stream
import Outline.Proofs.Text.Edges

namespace Outline

theorem continuesExpression_iff {line : Text} :
    continuesExpression line = true ↔ ∃ operator ∈ trailingOperators, operator <:+ Text.trimEnd line := by
  simp only [continuesExpression, List.any_eq_true, Text.endsWith_iff]

namespace StatementScan

theorem foldl_step_terminated (balance : Int) (code : Text) :
    code.foldl step ⟨balance, true⟩ = ⟨balance, true⟩ := by
  induction code with
  | nil => rfl
  | cons c code ih => rw [List.foldl_cons, step, if_pos rfl, ih]

theorem step_open (balance : Int) (c : Char) :
    step ⟨balance, false⟩ c =
      if c = ';' ∧ balance ≤ 0 then ⟨balance, true⟩ else ⟨balance + bracketValue c, false⟩ := by
  rw [step, if_neg Bool.false_ne_true, bracketStep_eq]
  simp only [Bool.and_eq_true, decide_eq_true_eq]

/-- The scan of a line ends the statement exactly when a semicolon stands outside brackets. -/
theorem terminated_foldl_iff (balance : Int) (code : Text) :
    (code.foldl step ⟨balance, false⟩).terminated = true ↔
      ∃ part, part ++ [';'] <+: code ∧ balance + Text.tally bracketValue part ≤ 0 := by
  induction code generalizing balance with
  | nil => simp
  | cons c code ih =>
    rw [List.foldl_cons, step_open]
    by_cases hends : c = ';' ∧ balance ≤ 0
    · rw [if_pos hends, foldl_step_terminated]
      obtain ⟨rfl, hbalance⟩ := hends
      exact iff_of_true rfl ⟨[], by simp, by simpa using hbalance⟩
    · rw [if_neg hends, ih]
      constructor
      · rintro ⟨part, hpart, hbalance⟩
        exact ⟨c :: part, List.cons_prefix_cons.2 ⟨rfl, hpart⟩, by rwa [Text.tally_cons, ← Int.add_assoc]⟩
      · rintro ⟨part, hpart, hbalance⟩
        cases part with
        | nil =>
          obtain ⟨rfl, _⟩ := List.cons_prefix_cons.1 hpart
          exact absurd ⟨rfl, by simpa using hbalance⟩ hends
        | cons d part =>
          obtain ⟨rfl, htail⟩ := List.cons_prefix_cons.1 hpart
          exact ⟨part, htail, by rwa [Text.tally_cons, ← Int.add_assoc] at hbalance⟩

/-- A scan that has not ended the statement has counted all brackets of the code. -/
theorem balance_foldl_of_open {balance : Int} {code : Text}
    (hopen : ¬ (code.foldl step ⟨balance, false⟩).terminated = true) :
    (code.foldl step ⟨balance, false⟩).balance = balance + Text.tally bracketValue code := by
  induction code generalizing balance with
  | nil => simp
  | cons c code ih =>
    rw [List.foldl_cons, step_open] at hopen ⊢
    by_cases hends : c = ';' ∧ balance ≤ 0
    · rw [if_pos hends, foldl_step_terminated] at hopen
      exact absurd rfl hopen
    · rw [if_neg hends] at hopen ⊢
      rw [ih hopen, Text.tally_cons, Int.add_assoc]

end StatementScan

namespace BlockRules

/-- A semicolon stands on line `k` where no bracket that was opened since line `start` is open. -/
def SemicolonOn (rules : BlockRules) (lines : List Text) (start k : Nat) : Prop :=
  ∃ part, part ++ [';'] <+: (rules.lexicon.readingFrom lines start k).codeText ∧
    Text.tally bracketValue (rules.lexicon.codeFrom lines start start k ++ part) ≤ 0

/-- Line `k` ends in code, outside the brackets opened since line `start` and not in an operator, and lines end
statements. -/
structure BreaksOn (rules : BlockRules) (lines : List Text) (start k : Nat) : Prop where
  newline : rules.terminator = .newline
  balanced : Text.tally bracketValue (rules.lexicon.codeFrom lines start start (k + 1)) ≤ 0
  inCode : rules.lexicon.stateFrom lines start (k + 1) = .code
  complete : ∀ operator ∈ trailingOperators, ¬ operator <:+ Text.trimEnd (lines.getD k [])

/-- A statement that begins on line `start` can end on line `k`. -/
def StatementEndsOn (rules : BlockRules) (lines : List Text) (start k : Nat) : Prop :=
  rules.SemicolonOn lines start k ∨ rules.BreaksOn lines start k

/-- A ceiling forbids to look at line `k`. -/
def CeilingOn (rules : BlockRules) (lines : List Text) (start k : Nat) : Prop :=
  start + rules.limits.maxBlockSpan < k ∨ rules.limits.maxIterations < rules.lexicon.examinedFrom lines start k

/-- An extent that follows the statement on its lines: unless a ceiling comes first, it ends on the first line on
which the statement can end, and is a guess if there is none. -/
structure FollowsStatement (rules : BlockRules) (lines : List Text) (start last : Nat) (extent : Extent) : Prop where
  ceilingHit_iff : extent.outcome = .ceilingHit ↔ ∃ k, start ≤ k ∧ k ≤ last ∧
    (∀ i, start ≤ i → i < k → ¬ rules.StatementEndsOn lines start i) ∧ rules.CeilingOn lines start k
  found_iff : extent.outcome ≠ .ceilingHit →
    ∀ stop, extent = ⟨start, stop, if stop = start then .singleLine else .terminated⟩ ↔
      start ≤ stop ∧ stop ≤ last ∧ rules.StatementEndsOn lines start stop ∧
      ∀ k, start ≤ k → k < stop → ¬ rules.StatementEndsOn lines start k
  unterminated : extent.outcome ≠ .ceilingHit →
    (∀ k, start ≤ k → k ≤ last → ¬ rules.StatementEndsOn lines start k) →
    extent = rules.fallback start last start .unterminated

variable {rules : BlockRules} {lines : List Text} {start last stop : Nat}

theorem CeilingOn.mono {k : Nat} (hceiling : rules.CeilingOn lines start k) (hle : k ≤ stop) :
    rules.CeilingOn lines start stop := by
  have hexamined : rules.lexicon.examinedFrom lines start k ≤ rules.lexicon.examinedFrom lines start stop :=
    rules.lexicon.examinedFrom_mono hle
  unfold CeilingOn at hceiling ⊢
  omega

theorem followsStatement_found (hstart : start ≤ stop) (hlast : stop ≤ last)
    (hends : rules.StatementEndsOn lines start stop)
    (hfirst : ∀ k, start ≤ k → k < stop → ¬ rules.StatementEndsOn lines start k)
    (hbelow : ¬ rules.CeilingOn lines start stop) :
    rules.FollowsStatement lines start last
      ⟨start, stop, if stop = start then .singleLine else .terminated⟩ := by
  refine ⟨iff_of_false (by split <;> simp) ?_, fun _ other => ?_, fun _ hnone => ?_⟩
  · rintro ⟨k, hk, _, hbefore, hceiling⟩
    rcases Nat.lt_or_ge stop k with hlt | hge
    · exact hbefore stop hstart hlt hends
    · exact hbelow (hceiling.mono hge)
  · constructor
    · intro heq
      obtain rfl : stop = other := congrArg Extent.last heq
      exact ⟨hstart, hlast, hends, hfirst⟩
    · rintro ⟨hother, _, hends', hfirst'⟩
      -- whichever of the two lines came first would end the statement before the other
      rcases Nat.lt_trichotomy stop other with hlt | rfl | hlt
      · exact absurd hends (hfirst' stop hstart hlt)
      · rfl
      · exact absurd hends' (hfirst other hother hlt)
  · exact absurd hends (hnone stop hstart hlast)

theorem followsStatement_ceiling {k : Nat} (hstart : start ≤ k) (hlast : k ≤ last)
    (hfirst : ∀ i, start ≤ i → i < k → ¬ rules.StatementEndsOn lines start i)
    (hceiling : rules.CeilingOn lines start k) :
    rules.FollowsStatement lines start last (rules.fallback start last start .ceilingHit) :=
  ⟨iff_of_true rfl ⟨k, hstart, hlast, hfirst, hceiling⟩, fun h => absurd rfl h, fun h => absurd rfl h⟩

theorem followsStatement_unterminated
    (hnone : ∀ k, start ≤ k → k ≤ last → ¬ rules.StatementEndsOn lines start k)
    (hbelow : ∀ k, start ≤ k → k ≤ last → ¬ rules.CeilingOn lines start k) :
    rules.FollowsStatement lines start last (rules.fallback start last start .unterminated) := by
  refine ⟨iff_of_false (by simp [fallback]) ?_, fun _ stop => iff_of_false (fun heq => ?_) ?_, fun _ _ => rfl⟩
  · rintro ⟨k, hk, hk', _, hceiling⟩
    exact hbelow k hk hk' hceiling
  · have houtcome := congrArg Extent.outcome heq
    by_cases hfirst : stop = start <;> simp [fallback, hfirst] at houtcome
  · rintro ⟨hstart, hlast, hends, _⟩
    exact hnone stop hstart hlast hends

/-- One line of the search: it stops on a line exactly when the statement can end there. -/
theorem stops_iff_statementEndsOn (rules : BlockRules) {k : Nat} (hstart : start ≤ k) (hlength : k < lines.length)
    {scan : StatementScan} (hscan : (rules.lexicon.readingFrom lines start k).codeText.foldl StatementScan.step
      ⟨Text.tally bracketValue (rules.lexicon.codeFrom lines start start k), false⟩ = scan) :
    (scan.terminated || (rules.terminator == .newline && decide (scan.balance ≤ 0) &&
        (rules.lexicon.readingFrom lines start k).state.inCode && !continuesExpression (lines.getD k []))) = true ↔
      rules.StatementEndsOn lines start k := by
  subst hscan
  have hsemicolon := StatementScan.terminated_foldl_iff
    (Text.tally bracketValue (rules.lexicon.codeFrom lines start start k))
    (rules.lexicon.readingFrom lines start k).codeText
  simp only [← Text.tally_append] at hsemicolon
  rw [Bool.or_eq_true, StatementEndsOn]
  by_cases hends : rules.SemicolonOn lines start k
  · exact iff_of_true (.inl (hsemicolon.2 hends)) (.inl hends)
  · have hopen := mt hsemicolon.1 hends
    rw [or_iff_right hopen, or_iff_right hends, StatementScan.balance_foldl_of_open hopen, ← Text.tally_append,
      ← rules.lexicon.codeFrom_succ hstart, ← rules.lexicon.stateFrom_succ hstart hlength]
    simp only [Bool.and_eq_true, beq_iff_eq, decide_eq_true_eq, LexState.inCode_iff, Bool.not_eq_true',
      Bool.eq_false_iff, ne_eq, continuesExpression_iff, not_exists, not_and]
    exact ⟨fun ⟨⟨⟨hnewline, hbalanced⟩, hcode⟩, hcomplete⟩ => ⟨hnewline, hbalanced, hcode, hcomplete⟩,
      fun hbreaks => ⟨⟨⟨hbreaks.newline, hbreaks.balanced⟩, hbreaks.inCode⟩, hbreaks.complete⟩⟩

theorem followsStatement_statementBody (rules : BlockRules) (last : Nat) {index : Nat} (hstart : start ≤ index)
    (hsome : 0 < lines.length)
    (hnone : ∀ k, start ≤ k → k < index → ¬ rules.StatementEndsOn lines start k)
    (hbelow : ∀ k, start ≤ k → k < index → ¬ rules.CeilingOn lines start k) :
    rules.FollowsStatement lines start (min last (lines.length - 1))
      (rules.statementBody start (min last (lines.length - 1)) index (rules.lexicon.examinedFrom lines start index)
        (rules.lexicon.stateFrom lines start index)
        (Text.tally bracketValue (rules.lexicon.codeFrom lines start start index)) (windowOf lines index last)) := by
  induction hwindow : windowOf lines index last generalizing index with
  | nil =>
    have hend := of_windowOf_eq_nil hwindow
    exact followsStatement_unterminated (fun k hk hk' => hnone k hk (by omega)) (fun k hk hk' => hbelow k hk (by omega))
  | cons text rest ih =>
    obtain ⟨hlast, hlength, hrest⟩ := of_windowOf_eq_cons hwindow
    rw [statementBody, rules.lexicon.readLine_of_windowOf hwindow, ← getD_of_windowOf hwindow]
    by_cases hexceeds : rules.exceeds start index (rules.lexicon.examinedFrom lines start index) = true
    · rw [if_pos hexceeds]
      exact followsStatement_ceiling hstart (by omega) hnone (exceeds_iff.1 hexceeds)
    rw [if_neg hexceeds]
    rw [exceeds_iff] at hexceeds
    have hstops := stops_iff_statementEndsOn rules hstart hlength rfl
    by_cases hends : rules.StatementEndsOn lines start index
    · rw [if_pos (hstops.2 hends)]
      exact followsStatement_found hstart (by omega) hends hnone hexceeds
    · have hgoes := mt hstops.1 hends
      have hopen := fun hterminated => hgoes (Bool.or_eq_true_iff.2 (.inl hterminated))
      rw [if_neg hgoes, StatementScan.balance_foldl_of_open hopen, ← Text.tally_append,
        ← rules.lexicon.codeFrom_succ hstart, ← rules.lexicon.examinedFrom_succ hstart,
        ← rules.lexicon.stateFrom_succ hstart hlength]
      exact ih (Nat.le_succ_of_le hstart) (forall_lt_succ hnone hends) (forall_lt_succ hbelow hexceeds) hrest

theorem followsStatement_statementExtent (rules : BlockRules) (hlast : start ≤ last) (hlength : start < lines.length) :
    rules.FollowsStatement lines start (min last (lines.length - 1))
      (rules.statementExtent start (windowOf lines start last)) := by
  have hbody := followsStatement_statementBody rules last (Nat.le_refl start) (Nat.zero_lt_of_lt hlength)
    (fun k hk hk' => by omega) (fun k hk hk' => by omega)
  rw [Lexicon.examinedFrom_self, Lexicon.stateFrom_self, Lexicon.codeFrom_self, Text.tally_nil] at hbody
  simp only [statementExtent, List.isEmpty_iff, windowOf_ne_nil hlength hlast, if_false, last_windowOf hlength hlast]
  exact hbody

/-- The extent of a statement is exact: it follows the statement on its lines, and where there are no lines to look
at it is the line on which the statement would begin. Nothing is assumed of the marks, the limits and the lines. Sums
are unbounded here; `answers_eq` carries this over to words. -/
theorem statementExtents_exact (rules : BlockRules) (lines : List Text) (start last : Nat) :
    (start ≤ last → start < lines.length →
      rules.FollowsStatement lines start (min last (lines.length - 1))
        (rules.statementExtent start (windowOf lines start last))) ∧
    (last < start ∨ lines.length ≤ start →
      rules.statementExtent start (windowOf lines start last) = .single start) := by
  refine ⟨followsStatement_statementExtent rules, fun hnone => ?_⟩
  obtain ⟨hcount, hcount'⟩ := length_windowOf_le lines start last
  have hempty : windowOf lines start last = [] := List.eq_nil_of_length_eq_zero (by omega)
  rw [hempty, statementExtent, List.isEmpty_nil, if_pos rfl]

/-- A statement with a semicolon inside its brackets, an operator at the end of a line and brackets in a comment. -/
def longStatement : List Text :=
  ["x".toList, "const a = [1; // ]".toList, "  2] &&".toList, "  b; c".toList, "d".toList]

theorem statementExtents_exact_longStatement :
    (Language.javascript.grammar.blockRules {}).statementExtent 1 (windowOf longStatement 1 9) =
        ⟨1, 3, .terminated⟩ ∧
      (Language.javascript.grammar.blockRules {}).FollowsStatement longStatement 1 (min 9 (longStatement.length - 1))
        ((Language.javascript.grammar.blockRules {}).statementExtent 1 (windowOf longStatement 1 9)) :=
  ⟨by decide, (statementExtents_exact _ longStatement 1 9).1 (by decide) (by decide)⟩

end BlockRules

end Outline
