import Outline.Config.Basic
import Outline.Proofs.Extent.Checked

namespace Outline

namespace BlockRules

/-- The rules with another span for guesses. -/
def respanned (rules : BlockRules) (span : Nat) : BlockRules :=
  { rules with limits := { rules.limits with fallbackSpan := span } }

/-- An extent with its last line guessed anew, if it is a guess. -/
def reguessed (rules : BlockRules) (start last : Nat) (extent : Extent) : Extent :=
  if extent.isDegraded then rules.fallback start last extent.headerEnd extent.outcome else extent

variable {rules : BlockRules} {start last headerEnd span : Nat}

section Fields

@[simp]
theorem lexicon_respanned : (rules.respanned span).lexicon = rules.lexicon := rfl

@[simp]
theorem style_respanned : (rules.respanned span).style = rules.style := rfl

@[simp]
theorem terminator_respanned : (rules.respanned span).terminator = rules.terminator := rfl

@[simp]
theorem fallbackSpan_respanned : (rules.respanned span).limits.fallbackSpan = span := rfl

@[simp]
theorem openerLookahead_respanned :
    (rules.respanned span).limits.openerLookahead = rules.limits.openerLookahead := rfl

@[simp]
theorem exceeds_respanned : (rules.respanned span).exceeds = rules.exceeds := rfl

@[simp]
theorem isIdle_respanned : (rules.respanned span).isIdle = rules.isIdle := rfl

end Fields

section Searches

variable {state : LexState} {lines : List Text} {index iterations : Nat}

theorem reguessed_found {extent : Extent} (hfound : extent.isDegraded = false) :
    rules.reguessed start last extent = extent := by
  rw [reguessed, hfound]
  rfl

theorem countToClose_respanned (opener closer : Char) (depth : Int) :
    (rules.respanned span).countToClose opener closer start headerEnd last index iterations state depth lines =
      (rules.respanned span).reguessed start last
        (rules.countToClose opener closer start headerEnd last index iterations state depth lines) := by
  induction lines generalizing index iterations state depth with
  | nil => rfl
  | cons line rest ih =>
    simp only [countToClose, exceeds_respanned, lexicon_respanned, ih]
    split
    · rfl
    · split <;> rfl

theorem findOpener_respanned (opener closer : Char) (parens : Int) :
    (rules.respanned span).findOpener opener closer start last index iterations state parens lines =
      (rules.respanned span).reguessed start last
        (rules.findOpener opener closer start last index iterations state parens lines) := by
  induction lines generalizing index iterations state parens with
  | nil => rfl
  | cons line rest ih =>
    simp only [findOpener, countToClose_respanned, lexicon_respanned, terminator_respanned,
      openerLookahead_respanned, ih]
    split
    · rfl
    · split
      · split
        · refine (reguessed_found ?_).symm
          by_cases hfirst : index = start <;> simp [hfirst, Extent.isDegraded]
        · rfl
      · rw [apply_ite ((rules.respanned span).reguessed start last)]
        rfl

theorem indentHead_respanned (brackets : Int) :
    (rules.respanned span).indentHead start last index iterations state brackets lines =
      rules.indentHead start last index iterations state brackets lines := by
  induction lines generalizing index iterations state brackets with
  | nil => rfl
  | cons line rest ih =>
    simp only [indentHead, lexicon_respanned, openerLookahead_respanned, ih]
    rfl

theorem indentBody_respanned (base reached : Nat) :
    (rules.respanned span).indentBody start headerEnd last base index iterations reached state lines =
      (rules.respanned span).reguessed start last
        (rules.indentBody start headerEnd last base index iterations reached state lines) := by
  induction lines generalizing index iterations reached state with
  | nil => exact (reguessed_found (isDegraded_closeIndent _ _ _)).symm
  | cons line rest ih =>
    simp only [indentBody, exceeds_respanned, lexicon_respanned, isIdle_respanned, ih]
    split
    · rfl
    · split
      · rfl
      · split
        · rfl
        · split
          · exact (reguessed_found (isDegraded_closeIndent _ _ _)).symm
          · rfl

theorem keywordBody_respanned (depth brackets : Nat) (previous : Text) :
    (rules.respanned span).keywordBody start last index iterations state depth brackets previous lines =
      (rules.respanned span).reguessed start last
        (rules.keywordBody start last index iterations state depth brackets previous lines) := by
  induction lines generalizing index iterations state depth brackets previous with
  | nil => rfl
  | cons line rest ih =>
    simp only [keywordBody, exceeds_respanned, lexicon_respanned, ih]
    split
    · rfl
    · split
      · split <;> rfl
      · rfl

theorem statementBody_respanned (balance : Int) :
    (rules.respanned span).statementBody start last index iterations state balance lines =
      (rules.respanned span).reguessed start last
        (rules.statementBody start last index iterations state balance lines) := by
  induction lines generalizing index iterations state balance with
  | nil => rfl
  | cons line rest ih =>
    simp only [statementBody, exceeds_respanned, lexicon_respanned, terminator_respanned, ih]
    have hfound : (rules.respanned span).reguessed start last
        ⟨start, index, if index = start then .singleLine else .terminated⟩ = _ := reguessed_found (by
      by_cases hfirst : index = start <;> simp [hfirst, Extent.isDegraded])
    split
    · rfl
    · rw [apply_ite ((rules.respanned span).reguessed start last), hfound]
      rfl

theorem blockExtent_respanned (hlast : start + lines.length - 1 = last) :
    (rules.respanned span).blockExtent start lines =
      (rules.respanned span).reguessed start last (rules.blockExtent start lines) := by
  subst hlast
  by_cases hsome : lines = []
  · rw [hsome]
    rfl
  · simp only [blockExtent, List.isEmpty_iff, hsome, if_false, style_respanned]
    cases rules.style with
    | braces opener closer => exact findOpener_respanned opener closer 0
    | indent =>
      simp only [indentExtent, indentHead_respanned]
      exact indentBody_respanned _ _
    | keyword => exact keywordBody_respanned 0 0 []

theorem openBlockExtent_respanned (hlast : start + lines.length - 1 = last) :
    (rules.respanned span).openBlockExtent start lines =
      (rules.respanned span).reguessed start last (rules.openBlockExtent start lines) := by
  have hblock : (rules.respanned span).blockExtent start lines = _ := blockExtent_respanned hlast
  unfold openBlockExtent
  rw [style_respanned]
  cases rules.style with
  | braces opener closer =>
    cases lines with
    | nil => rfl
    | cons line rest =>
      obtain rfl : start + rest.length = last := hlast
      simp only [pairExtent, lexicon_respanned, countToClose_respanned]
      rw [apply_ite ((rules.respanned span).reguessed start (start + rest.length))]
      rfl
  | indent => exact hblock
  | keyword => exact hblock

theorem statementExtent_respanned (hlast : start + lines.length - 1 = last) :
    (rules.respanned span).statementExtent start lines =
      (rules.respanned span).reguessed start last (rules.statementExtent start lines) := by
  subst hlast
  by_cases hsome : lines = []
  · rw [hsome]
    rfl
  · simp only [statementExtent, List.isEmpty_iff, hsome, if_false]
    exact statementBody_respanned 0

end Searches

/-- What 64-bit words do to a search on the lines up to `last`, given the search over unbounded sums and the search
that is made in words. -/
structure InWords (rules : BlockRules) (start last : Nat) (search : BlockRules → Extent)
    (run : BlockRules → Except Breakdown Extent) : Prop where
  /-- All sums that do not saturate are words, but for the sum of a guess. -/
  fails_iff : ∀ breakdown, run rules = .error breakdown ↔
    breakdown = .overflow ∧ (search rules).isDegraded = true ∧ UInt64.size ≤ start + rules.limits.fallbackSpan
  /-- Saturated or not, the sums lead to the extent over the naturals. -/
  answer_eq : ∀ extent, run rules = .ok extent → extent = search rules
  /-- A guess that is made is the one over the naturals. -/
  guess_eq : ∀ extent, run rules = .ok extent → extent.isDegraded = true →
    extent.last = max extent.headerEnd (min (start + rules.limits.fallbackSpan) last)
  /-- A larger span does not make the extent shorter as long as there is one. -/
  grows : ∀ span larger, rules.limits.fallbackSpan ≤ span → run (rules.respanned span) = .ok larger →
    ∃ extent, run rules = .ok extent ∧ extent.last ≤ larger.last

/-- A search without lines does not look at the span. -/
theorem inWords_single {search : BlockRules → Extent} {run : BlockRules → Except Breakdown Extent}
    (hsearch : ∀ rules, search rules = .single start) (hrun : ∀ rules, run rules = .ok (.single start)) :
    rules.InWords start last search run where
  fails_iff breakdown := by simp [hsearch, hrun, Extent.single, Extent.isDegraded]
  answer_eq extent hextent := by rw [hsearch, Except.ok.inj (hextent.symm.trans (hrun rules))]
  guess_eq extent hextent hdegraded := by
    rw [Except.ok.inj (hextent.symm.trans (hrun rules))] at hdegraded
    cases hdegraded
  grows span larger _ hlarger := by
    obtain rfl := Except.ok.inj (hlarger.symm.trans (hrun _))
    exact ⟨_, hrun rules, Nat.le_refl _⟩

/-- What a search does in words follows from its bounds, from where a run gives its extent and from what it does for
other spans. -/
theorem Admits.inWords (search : BlockRules → Extent) (run : BlockRules → Except Breakdown Extent)
    (hadmits : rules.Admits start last (search rules))
    (hrun : ∀ span, run (rules.respanned span) =
      (rules.respanned span).unlessTooLarge start (search (rules.respanned span)))
    (hrespanned : ∀ span, search (rules.respanned span) =
      (rules.respanned span).reguessed start last (search rules)) :
    rules.InWords start last search run := by
  have hself : run rules = rules.unlessTooLarge start (search rules) := hrun rules.limits.fallbackSpan
  have hguess : (search rules).isDegraded = true →
      (search rules).last = max (search rules).headerEnd (min (start + rules.limits.fallbackSpan) last) :=
    fun hdegraded => (congrArg Extent.last (hadmits.guess hdegraded)).trans (Nat.max_comm _ _)
  refine ⟨fun breakdown => ?_, fun extent hextent => ?_, fun extent hextent hdegraded => ?_,
    fun span larger hle hlarger => ?_⟩
  · rw [hself, unlessTooLarge]
    split
    · next hlarge => simp [hlarge, eq_comm]
    · next hfits => simp only [reduceCtorEq, hfits, and_false]
  · exact eq_of_unlessTooLarge (hself.symm.trans hextent)
  · obtain rfl := eq_of_unlessTooLarge (hself.symm.trans hextent)
    exact hguess hdegraded
  · have hfits := fits_of_unlessTooLarge ((hrun span).symm.trans hlarger)
    obtain rfl := eq_of_unlessTooLarge ((hrun span).symm.trans hlarger)
    rw [hrespanned, reguessed] at hfits ⊢
    cases hdegraded : (search rules).isDegraded with
    | false => exact ⟨_, hself.trans (unlessTooLarge_found hdegraded), by simp⟩
    | true =>
      rw [if_pos hdegraded, fallbackSpan_respanned] at hfits
      have hword : start + span < UInt64.size := hfits hdegraded
      refine ⟨_, hself.trans (if_neg fun hlarge => ?_), ?_⟩
      · exact Nat.not_lt.2 hlarge.2 (Nat.lt_of_le_of_lt (Nat.add_le_add_left hle start) hword)
      · rw [hguess hdegraded, if_pos rfl]
        dsimp only [fallback, fallbackSpan_respanned]
        omega

/-- In 64-bit words every search does what it does over the naturals, on all lines that fit into memory, whatever
the limits and the lines are, but for the sum of a guess: where that is no word there is no answer, and wherever there
is one it is exact and grows with the span. Assumed is that no mark of the language is empty, as in all languages. -/
theorem searches_inWords (rules : BlockRules) (lines : List Text) (start last : Nat)
    (hmarks : rules.lexicon.hasMarks = true) (hmemory : Text.storage lines < UInt64.size) :
    rules.InWords start (min last (lines.length - 1)) (·.blockExtent start (windowOf lines start last))
        (·.blockExtent? start (windowOf lines start last)) ∧
      rules.InWords start (min last (lines.length - 1)) (·.openBlockExtent start (windowOf lines start last))
        (·.openBlockExtent? start (windowOf lines start last)) ∧
      rules.InWords start (min last (lines.length - 1)) (·.statementExtent start (windowOf lines start last))
        (·.statementExtent? start (windowOf lines start last)) := by
  by_cases hinside : start < lines.length ∧ start ≤ last
  · obtain ⟨hstart, hbefore⟩ := hinside
    have hlines := add_length_windowOf hstart hbefore
    have hsome := windowOf_ne_nil hstart hbefore
    have hend := last_windowOf hstart hbefore
    have hfits (span : Nat) : (rules.respanned span).Fits 1 rules.lexicon.Possible start 0 .code
        (windowOf lines start last) :=
      fits_windowOf (Lexicon.paced_possible hmarks) Nat.one_pos id hstart hbefore (by rwa [Nat.one_mul])
    have heq {span : Nat} {run : Except Breakdown Extent} {extent : Extent}
        (hrun : (rules.respanned span).RunsTo start (windowOf lines start last) run extent) :
        run = (rules.respanned span).unlessTooLarge start extent := hrun.eq_of_hasMarks hmarks
    refine ⟨?_, ?_, ?_⟩
    · exact Admits.inWords (·.blockExtent start (windowOf lines start last)) _
        (admits_blockExtent hsome hlines) (fun span => heq (runsTo_blockExtent? (hfits span)))
        fun _ => blockExtent_respanned hend
    · exact Admits.inWords (·.openBlockExtent start (windowOf lines start last)) _
        (admits_openBlockExtent hsome hlines) (fun span => heq (runsTo_openBlockExtent? (hfits span)))
        fun _ => openBlockExtent_respanned hend
    · exact Admits.inWords (·.statementExtent start (windowOf lines start last)) _
        (admits_statementExtent hsome hlines) (fun span => heq (runsTo_statementExtent? (hfits span)))
        fun _ => statementExtent_respanned hend
  · have hnone : windowOf lines start last = [] := by
      refine List.length_eq_zero_iff.1 ?_
      have hlength := length_windowOf_le lines start last
      omega
    rw [hnone]
    have hopen : ∀ rules : BlockRules, rules.openBlockExtent start [] = .single start := by
      intro rules
      unfold openBlockExtent
      split <;> rfl
    have hopen? : ∀ rules : BlockRules, rules.openBlockExtent? start [] = .ok (.single start) := by
      intro rules
      unfold openBlockExtent?
      split <;> rfl
    exact ⟨inWords_single (fun _ => rfl) (fun _ => rfl), inWords_single hopen hopen?,
      inWords_single (fun _ => rfl) (fun _ => rfl)⟩

/-- Limits with the largest span that is a word. -/
def widestSpan : Limits :=
  { fallbackSpan := 18446744073709551615 }

/-- A body without an end below a blank line. -/
def lateBody : List Text :=
  [[], "fn f() \x7b".toList, "a".toList]

theorem searches_inWords_lateBody :
    (Language.rust.grammar.blockRules widestSpan).blockExtent? 1 (windowOf lateBody 1 2) = .error .overflow ∧
      (Language.rust.grammar.blockRules {}).blockExtent? 1 (windowOf lateBody 1 2) = .ok ⟨1, 2, .unterminated⟩ ∧
      (Language.rust.grammar.blockRules widestSpan).InWords 1 (min 2 (lateBody.length - 1))
        (·.blockExtent 1 (windowOf lateBody 1 2)) (·.blockExtent? 1 (windowOf lateBody 1 2)) :=
  ⟨by decide, by decide, (searches_inWords _ lateBody 1 2 (by decide) (by decide)).1⟩

/-- Under usable limits whose fields are words, the guess for the body below the blank line has a sum that is no
word: there is no extent at all, although there is one with the default span. -/
theorem not_exact_lateBody :
    ¬ ∀ (config : Config) (language : Language) (lines : List Text) (start last span : Nat),
      config.validate = .ok config →
      (∀ field ∈ [config.limits.maxBlockSpan, config.limits.maxIterations, config.limits.fallbackSpan,
        config.limits.openerLookahead, config.limits.maxDepth, config.limits.maxDeclarations],
          field < UInt64.size) →
      span ≤ config.limits.fallbackSpan →
      let rules := language.grammar.blockRules config.limits
      ∃ extent, rules.blockExtent? start (windowOf lines start last) = .ok extent ∧
        (extent.isDegraded = true → extent.last =
          max extent.headerEnd (min (start + config.limits.fallbackSpan) (min last (lines.length - 1)))) ∧
        ∀ smaller, (rules.respanned span).blockExtent? start (windowOf lines start last) = .ok smaller →
          smaller.last ≤ extent.last := by
  intro hexact
  obtain ⟨extent, hextent, -⟩ := hexact { limits := widestSpan } .rust lateBody 1 2 50 rfl (by decide) (by decide)
  have hfails : (Language.rust.grammar.blockRules widestSpan).blockExtent? 1 (windowOf lateBody 1 2) =
      .error .overflow := by decide
  cases hextent.symm.trans hfails

end BlockRules

end Outline
