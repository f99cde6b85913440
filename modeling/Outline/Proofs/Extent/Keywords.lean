import Outline.Proofs.Extent.Reach
import Outline.Proofs.Extent.Words
import Outline.Proofs.Lexing.Stream

namespace Outline

namespace Lexicon

/-- The code of the lines from `first` on and before line `index`, with a line break after each. -/
def codeLines (lexicon : Lexicon) (lines : List Text) (first index : Nat) : Text :=
  (List.range' first (index - first)).flatMap fun i => (lexicon.readingFrom lines first i).codeText ++ ['\n']

/-- The words on line `index` for a reader who starts in code on line `first`. -/
def wordsOn (lexicon : Lexicon) (lines : List Text) (first index : Nat) : List Occurrence :=
  (Text.runs (lexicon.readingFrom lines first index).codeText).map
    (Occurrence.mk (lexicon.codeLines lines first index))

/-- The depth of blocks when line `index` begins, after all words since line `first`. -/
def depthFrom (lexicon : Lexicon) (lines : List Text) (first index : Nat) : Nat :=
  Occurrence.depthAfter 0 ((List.range' first (index - first)).flatMap (lexicon.wordsOn lines first))

/-- The scan of the words on line `index`, with what is remembered of the lines before. -/
def wordScan (lexicon : Lexicon) (lines : List Text) (first index : Nat) : WordScan :=
  WordScan.readLine (lexicon.depthFrom lines first index) (openBrackets (lexicon.codeLines lines first index))
    (Text.lastWord (lexicon.codeLines lines first index)) (lexicon.readingFrom lines first index).codeText

/-- The bytes of code read when line `index` begins; a line without code counts as one. -/
def bytesFrom (lexicon : Lexicon) (lines : List Text) (first index : Nat) : Nat :=
  ∑ i ∈ Finset.Ico first index, max (Text.byteSize (lexicon.readingFrom lines first i).codeText) 1

/-- A word on line `index` brings the depth back to zero. -/
def ReturnsOn (lexicon : Lexicon) (lines : List Text) (first index : Nat) : Prop :=
  Occurrence.Returns (lexicon.depthFrom lines first index) (lexicon.wordsOn lines first index)

/-- The depth is zero after line `index`, of which nothing is read after a word that brings it back to zero. -/
def EndsOn (lexicon : Lexicon) (lines : List Text) (first index : Nat) : Prop :=
  lexicon.ReturnsOn lines first index ∨ lexicon.depthFrom lines first (index + 1) = 0

variable (lexicon : Lexicon) {lines : List Text} {first index high : Nat}

@[simp]
theorem codeLines_self : lexicon.codeLines lines first first = [] := by
  simp [codeLines]

theorem codeLines_succ (hfirst : first ≤ index) :
    lexicon.codeLines lines first (index + 1) =
      lexicon.codeLines lines first index ++ ((lexicon.readingFrom lines first index).codeText ++ ['\n']) := by
  rw [codeLines, Nat.succ_sub hfirst, List.range'_concat, List.flatMap_append]
  simp [codeLines, Nat.add_sub_cancel' hfirst]

theorem codeLines_breaks (hfirst : first ≤ index) :
    ∀ c ∈ (lexicon.codeLines lines first index).getLast?, isNameChar c = false := by
  rcases Nat.eq_or_lt_of_le hfirst with rfl | hlt
  · simp [codeLines]
  · obtain ⟨index, rfl⟩ := Nat.exists_eq_succ_of_ne_zero (Nat.ne_of_gt (Nat.zero_lt_of_lt hlt))
    rw [codeLines_succ lexicon (Nat.le_of_lt_succ hlt), ← List.append_assoc, List.getLast?_concat]
    simp only [Option.mem_def, Option.some.injEq, forall_eq']
    decide

@[simp]
theorem depthFrom_self : lexicon.depthFrom lines first first = 0 := by
  simp [depthFrom, Occurrence.depthAfter]

theorem depthFrom_succ (hfirst : first ≤ index) :
    lexicon.depthFrom lines first (index + 1) =
      Occurrence.depthAfter (lexicon.depthFrom lines first index) (lexicon.wordsOn lines first index) := by
  rw [depthFrom, Nat.succ_sub hfirst, List.range'_concat, List.flatMap_append, Occurrence.depthAfter,
    List.foldl_append]
  simp [depthFrom, Occurrence.depthAfter, Nat.add_sub_cancel' hfirst]

@[simp]
theorem bytesFrom_self : lexicon.bytesFrom lines first first = 0 := by
  simp [bytesFrom]

theorem bytesFrom_succ (hfirst : first ≤ index) :
    lexicon.bytesFrom lines first (index + 1) =
      lexicon.bytesFrom lines first index +
        max (Text.byteSize (lexicon.readingFrom lines first index).codeText) 1 := by
  rw [bytesFrom, Finset.sum_Ico_succ_top hfirst, bytesFrom]

theorem bytesFrom_mono (hindex : index ≤ high) :
    lexicon.bytesFrom lines first index ≤ lexicon.bytesFrom lines first high :=
  Finset.sum_le_sum_of_subset (Finset.Ico_subset_Ico_right hindex)

/-- The scan of line `index` finds what the words on the line do, and remembers the code up to the next line. -/
theorem finds_wordScan (hfirst : first ≤ index) :
    WordScan.Finds (lexicon.codeLines lines first (index + 1)) (lexicon.depthFrom lines first index)
      (lexicon.wordsOn lines first index) (lexicon.wordScan lines first index) := by
  rw [codeLines_succ lexicon hfirst]
  exact WordScan.finds_readLine (lexicon.codeLines_breaks hfirst) _ _

/-- The depth is zero after the scan of a line exactly when the line ends the body. -/
theorem depth_wordScan_eq_zero_iff (hfirst : first ≤ index) :
    (lexicon.wordScan lines first index).depth = 0 ↔ lexicon.EndsOn lines first index := by
  by_cases hreturns : lexicon.ReturnsOn lines first index
  · exact iff_of_true ((lexicon.finds_wordScan hfirst).returns hreturns) (.inl hreturns)
  · rw [(lexicon.finds_wordScan hfirst).depth_eq hreturns, EndsOn, or_iff_right hreturns,
      lexicon.depthFrom_succ hfirst]

/-- After the first line a block is open as long as no line has ended, so that only a word can end it. -/
theorem endsOn_iff_returnsOn (hfirst : first < index)
    (hnone : ∀ k, first ≤ k → k < index → ¬ lexicon.EndsOn lines first k) :
    lexicon.EndsOn lines first index ↔ lexicon.ReturnsOn lines first index := by
  refine ⟨fun hends => ?_, .inl⟩
  by_contra hgoes
  obtain ⟨index, rfl⟩ := Nat.exists_eq_succ_of_ne_zero (Nat.ne_of_gt (Nat.zero_lt_of_lt hfirst))
  obtain ⟨_, hopen⟩ := not_or.1 (hnone index (Nat.le_of_lt_succ hfirst) (Nat.lt_succ_self _))
  have hdepth := Occurrence.depthAfter_pos (Nat.pos_of_ne_zero hopen) hgoes
  rw [← depthFrom_succ lexicon (Nat.le_of_lt hfirst)] at hdepth
  exact hends.elim hgoes (Nat.ne_of_gt hdepth)

/-- If the first line does not end and no word on the lines before `index` returns, none of these lines ends. -/
theorem not_endsOn_of_not_returnsOn (hopen : ¬ lexicon.EndsOn lines first first)
    (hnone : ∀ k, first ≤ k → k < index → ¬ lexicon.ReturnsOn lines first k) :
    ∀ k, first ≤ k → k < index → ¬ lexicon.EndsOn lines first k := by
  intro k
  induction k using Nat.strongRecOn with
  | ind k ih =>
    intro hk hk'
    rcases Nat.eq_or_lt_of_le hk with rfl | hlt
    · exact hopen
    · rw [endsOn_iff_returnsOn lexicon hlt fun i hi hi' => ih i hi' hi (by omega)]
      exact hnone k hk hk'

end Lexicon

namespace BlockRules

/-- A ceiling forbids to look at line `index`. -/
def WordCeilingOn (rules : BlockRules) (lines : List Text) (start index : Nat) : Prop :=
  start + rules.limits.maxBlockSpan < index ∨ rules.limits.maxIterations < rules.lexicon.bytesFrom lines start index

/-- An extent that follows the words of its lines: it is the first line if no block is open after it; otherwise,
unless a ceiling comes first, it is matched on the first later line on which the depth returns to zero, and a guess
if there is none. -/
structure FollowsWords (rules : BlockRules) (lines : List Text) (start last : Nat) (extent : Extent) : Prop where
  single : rules.lexicon.EndsOn lines start start → extent = .single start
  ceilingHit_iff : extent.outcome = .ceilingHit ↔ ∃ k, start ≤ k ∧ k ≤ last ∧
    (∀ i, start ≤ i → i < k → ¬ rules.lexicon.EndsOn lines start i) ∧ rules.WordCeilingOn lines start k
  matched_iff : ¬ rules.lexicon.EndsOn lines start start → extent.outcome ≠ .ceilingHit →
    ∀ stop, extent = ⟨start, stop, .matched⟩ ↔ start < stop ∧ stop ≤ last ∧
      rules.lexicon.ReturnsOn lines start stop ∧
      ∀ k, start ≤ k → k < stop → ¬ rules.lexicon.ReturnsOn lines start k
  unterminated : ¬ rules.lexicon.EndsOn lines start start → extent.outcome ≠ .ceilingHit →
    (∀ k, start ≤ k → k ≤ last → ¬ rules.lexicon.ReturnsOn lines start k) →
    extent = rules.fallback start last start .unterminated

variable {rules : BlockRules} {lines : List Text} {start last : Nat}

/-- How the search can end: on the first line that ends the body, at a ceiling before it, or behind the lines. -/
inductive WordSearch (rules : BlockRules) (lines : List Text) (start last : Nat) : Extent → Prop where
  | found {stop : Nat} (hstart : start ≤ stop) (hlast : stop ≤ last) (hends : rules.lexicon.EndsOn lines start stop)
      (hfirst : ∀ k, start ≤ k → k < stop → ¬ rules.lexicon.EndsOn lines start k)
      (hbelow : ¬ rules.WordCeilingOn lines start stop) :
      WordSearch rules lines start last (if stop = start then .single start else ⟨start, stop, .matched⟩)
  | ceiling {k : Nat} (hstart : start ≤ k) (hlast : k ≤ last)
      (hfirst : ∀ i, start ≤ i → i < k → ¬ rules.lexicon.EndsOn lines start i)
      (hceiling : rules.WordCeilingOn lines start k) :
      WordSearch rules lines start last (rules.fallback start last start .ceilingHit)
  | behind (hnone : ∀ k, start ≤ k → k ≤ last → ¬ rules.lexicon.EndsOn lines start k)
      (hbelow : ∀ k, start ≤ k → k ≤ last → ¬ rules.WordCeilingOn lines start k) :
      WordSearch rules lines start last (rules.fallback start last start .unterminated)

theorem wordSearch_keywordBody (rules : BlockRules) (last : Nat) {index : Nat} (hstart : start ≤ index)
    (hindex : 0 < lines.length)
    (hnone : ∀ k, start ≤ k → k < index → ¬ rules.lexicon.EndsOn lines start k)
    (hbelow : ∀ k, start ≤ k → k < index → ¬ rules.WordCeilingOn lines start k) :
    rules.WordSearch lines start (min last (lines.length - 1))
      (rules.keywordBody start (min last (lines.length - 1)) index (rules.lexicon.bytesFrom lines start index)
        (rules.lexicon.stateFrom lines start index) (rules.lexicon.depthFrom lines start index)
        (openBrackets (rules.lexicon.codeLines lines start index))
        (Text.lastWord (rules.lexicon.codeLines lines start index)) (windowOf lines index last)) := by
  induction hwindow : windowOf lines index last generalizing index with
  | nil =>
    have := of_windowOf_eq_nil hwindow
    exact .behind (fun k hk hk' => hnone k hk (by omega)) (fun k hk hk' => hbelow k hk (by omega))
  | cons text rest ih =>
    obtain ⟨hlast, hlength, hrest⟩ := of_windowOf_eq_cons hwindow
    rw [keywordBody, rules.lexicon.readLine_of_windowOf hwindow]
    by_cases hexceeds : rules.exceeds start index (rules.lexicon.bytesFrom lines start index) = true
    · rw [if_pos hexceeds]
      exact .ceiling hstart (by omega) hnone (exceeds_iff.1 hexceeds)
    rw [if_neg hexceeds]
    rw [exceeds_iff] at hexceeds
    simp only [← Lexicon.wordScan.eq_1]
    by_cases hends : rules.lexicon.EndsOn lines start index
    · rw [if_pos ((rules.lexicon.depth_wordScan_eq_zero_iff hstart).2 hends)]
      exact .found hstart (by omega) hends hnone hexceeds
    · have hgoes := mt Or.inl hends
      have hfinds : WordScan.Finds _ _ _ (rules.lexicon.wordScan lines start index) :=
        rules.lexicon.finds_wordScan hstart
      rw [if_neg (mt (rules.lexicon.depth_wordScan_eq_zero_iff hstart).1 hends), hfinds.depth_eq hgoes,
        hfinds.brackets_eq hgoes, hfinds.previous_eq hgoes, ← rules.lexicon.depthFrom_succ hstart,
        ← rules.lexicon.bytesFrom_succ hstart, ← rules.lexicon.stateFrom_succ hstart hlength]
      exact ih (Nat.le_succ_of_le hstart) (forall_lt_succ hnone hends) (forall_lt_succ hbelow hexceeds) hrest

theorem WordCeilingOn.mono {k index : Nat} (hceiling : rules.WordCeilingOn lines start k) (hle : k ≤ index) :
    rules.WordCeilingOn lines start index := by
  have hbytes : rules.lexicon.bytesFrom lines start k ≤ rules.lexicon.bytesFrom lines start index :=
    rules.lexicon.bytesFrom_mono hle
  unfold WordCeilingOn at hceiling ⊢
  omega

theorem not_wordCeilingOn_start : ¬ rules.WordCeilingOn lines start start := by
  simp [WordCeilingOn]

/-- The first line that ends the body is the first later line on which the depth returns to zero. -/
theorem eq_iff_first_returnsOn {stop other : Nat} (hopen : ¬ rules.lexicon.EndsOn lines start start)
    (hstart : start < stop) (hlast : stop ≤ last) (hends : rules.lexicon.EndsOn lines start stop)
    (hfirst : ∀ k, start ≤ k → k < stop → ¬ rules.lexicon.EndsOn lines start k) :
    stop = other ↔ start < other ∧ other ≤ last ∧ rules.lexicon.ReturnsOn lines start other ∧
      ∀ k, start ≤ k → k < other → ¬ rules.lexicon.ReturnsOn lines start k := by
  constructor
  · rintro rfl
    exact ⟨hstart, hlast, (rules.lexicon.endsOn_iff_returnsOn hstart hfirst).1 hends,
      fun k hk hk' hreturns => hfirst k hk hk' (.inl hreturns)⟩
  · rintro ⟨hother, _, hreturns, hnone⟩
    have hnone' := rules.lexicon.not_endsOn_of_not_returnsOn hopen hnone
    -- whichever of the two lines came first would end the body before the other
    rcases Nat.lt_trichotomy stop other with hlt | heq | hlt
    · exact absurd hends (hnone' stop (Nat.le_of_lt hstart) hlt)
    · exact heq
    · exact absurd (.inl hreturns) (hfirst other (Nat.le_of_lt hother) hlt)

theorem WordSearch.followsWords {extent : Extent} (hsearch : rules.WordSearch lines start last extent)
    (hlast : start ≤ last) : rules.FollowsWords lines start last extent := by
  cases hsearch with
  | @found stop hstart hstop hends hfirst hbelow =>
    have houtcome : (if stop = start then Extent.single start else ⟨start, stop, .matched⟩).outcome ≠ .ceilingHit := by
      split <;> simp [Extent.single]
    have hopen (h : ¬ rules.lexicon.EndsOn lines start start) : stop ≠ start := fun heq => h (heq ▸ hends)
    refine ⟨fun h => ?_, iff_of_false houtcome ?_, fun h _ other => ?_, fun h _ hnone => ?_⟩
    · rw [if_pos (by_contra fun hne => hfirst start (Nat.le_refl _) (by omega) h)]
    · rintro ⟨k, hk, _, hbefore, hceiling⟩
      rcases Nat.lt_or_ge stop k with hlt | hge
      · exact hbefore stop hstart hlt hends
      · exact hbelow (hceiling.mono hge)
    · have hlt : start < stop := by
        have := hopen h
        omega
      rw [if_neg (hopen h), ← eq_iff_first_returnsOn h hlt hstop hends hfirst]
      simp
    · have hlt : start < stop := by
        have := hopen h
        omega
      exact absurd ((rules.lexicon.endsOn_iff_returnsOn hlt hfirst).1 hends) (hnone stop hstart hstop)
  | @ceiling k hstart hk hfirst hceiling =>
    refine ⟨fun h => ?_, iff_of_true rfl ⟨k, hstart, hk, hfirst, hceiling⟩, fun _ h => absurd rfl h,
      fun _ h => absurd rfl h⟩
    rcases Nat.eq_or_lt_of_le hstart with rfl | hlt
    · exact absurd hceiling not_wordCeilingOn_start
    · exact absurd h (hfirst start (Nat.le_refl _) hlt)
  | behind hnone hbelow =>
    refine ⟨fun h => absurd h (hnone start (Nat.le_refl _) hlast), iff_of_false (by simp [fallback]) ?_, fun _ _ stop => ?_,
      fun _ _ _ => rfl⟩
    · rintro ⟨k, hk, hk', _, hceiling⟩
      exact hbelow k hk hk' hceiling
    · refine iff_of_false (by simp [fallback]) ?_
      rintro ⟨hstart, hstop, hreturns, _⟩
      exact hnone stop (Nat.le_of_lt hstart) hstop (.inl hreturns)

theorem blockExtent_eq_keywordBody (hstyle : rules.style = .keyword) (hlast : start ≤ last)
    (hlength : start < lines.length) :
    rules.blockExtent start (windowOf lines start last) =
      rules.keywordBody start (min last (lines.length - 1)) start (rules.lexicon.bytesFrom lines start start)
        (rules.lexicon.stateFrom lines start start) (rules.lexicon.depthFrom lines start start)
        (openBrackets (rules.lexicon.codeLines lines start start))
        (Text.lastWord (rules.lexicon.codeLines lines start start)) (windowOf lines start last) := by
  simp only [blockExtent, List.isEmpty_iff, windowOf_ne_nil hlength hlast, if_false, hstyle, keywordExtent,
    last_windowOf hlength hlast, Lexicon.bytesFrom_self, Lexicon.stateFrom_self, Lexicon.depthFrom_self,
    Lexicon.codeLines_self, openBrackets_nil, Text.lastWord_nil]

/-- The extent of a declaration with a body closed by `end` is exact: it follows the words of its lines, which are
the maximal runs of name characters of the code in their order. Nothing is assumed of the marks, the limits and the
lines. Sums are unbounded here; `answers_eq` carries this over to words. -/
theorem keywordExtents_exact (rules : BlockRules) (lines : List Text) (start last : Nat)
    (hstyle : rules.style = .keyword) (hlast : start ≤ last) (hlength : start < lines.length) :
    rules.FollowsWords lines start (min last (lines.length - 1))
        (rules.blockExtent start (windowOf lines start last)) ∧
      ∀ index, (∀ run, run ∈ Text.runs (rules.lexicon.readingFrom lines start index).codeText ↔
          Text.IsRun (rules.lexicon.readingFrom lines start index).codeText run) ∧
        (Text.runs (rules.lexicon.readingFrom lines start index).codeText).Pairwise
          fun first second => first.before.length < second.before.length := by
  refine ⟨?_, fun index => ⟨fun run => Text.mem_runs_iff, Text.pairwise_runs _⟩⟩
  rw [blockExtent_eq_keywordBody hstyle hlast hlength]
  have hsearch := wordSearch_keywordBody rules last (Nat.le_refl start) (Nat.zero_lt_of_lt hlength)
    (fun k hk hk' => by omega) (fun k hk hk' => by omega)
  exact hsearch.followsWords (by omega)

/-- A body in which `end` is also an index, a field and the end of a type whose head goes over two lines. -/
def wordedBody : List Text :=
  ["function f(x)".toList, "  x.end = x[end]".toList, "  abstract # end".toList, "  type A end".toList,
    "end; g()".toList, "end".toList]

theorem keywordExtents_exact_wordedBody :
    (Language.julia.grammar.blockRules {}).blockExtent 0 (windowOf wordedBody 0 5) = ⟨0, 4, .matched⟩ ∧
      (Language.julia.grammar.blockRules {}).FollowsWords wordedBody 0 (min 5 (wordedBody.length - 1))
        ((Language.julia.grammar.blockRules {}).blockExtent 0 (windowOf wordedBody 0 5)) :=
  ⟨by decide, (keywordExtents_exact _ wordedBody 0 5 rfl (by decide) (by decide)).1⟩

end BlockRules

end Outline
