import Outline.Extent.Keyword
import Outline.Proofs.Text.Runs

namespace Outline

/-- How many brackets are open after a text; one that closes nothing is passed over. -/
def openBrackets (t : Text) : Nat :=
  t.foldl (fun count c => if isOpenBracket c then count + 1 else if isCloseBracket c then count - 1 else count) 0

@[simp]
theorem openBrackets_nil : openBrackets [] = 0 := rfl

theorem openBrackets_append_singleton (t : Text) (c : Char) :
    openBrackets (t ++ [c]) =
      if isOpenBracket c then openBrackets t + 1
      else if isCloseBracket c then openBrackets t - 1 else openBrackets t := by
  rw [openBrackets, List.foldl_append]
  rfl

theorem not_bracket_of_isNameChar {c : Char} (hc : isNameChar c = true) :
    isOpenBracket c = false ∧ isCloseBracket c = false := by
  constructor <;> refine Bool.eq_false_iff.2 fun hbracket => ?_
  · simp only [isOpenBracket, Bool.or_eq_true, beq_iff_eq] at hbracket
    rcases hbracket with (rfl | rfl) | rfl <;> revert hc <;> decide
  · simp only [isCloseBracket, Bool.or_eq_true, beq_iff_eq] at hbracket
    rcases hbracket with (rfl | rfl) | rfl <;> revert hc <;> decide

theorem openBrackets_append_word {word : Text} (hword : ∀ c ∈ word, isNameChar c = true) (t : Text) :
    openBrackets (t ++ word) = openBrackets t := by
  induction word generalizing t with
  | nil => simp
  | cons c word ih =>
    obtain ⟨hopen, hclose⟩ := not_bracket_of_isNameChar (hword c List.mem_cons_self)
    rw [List.append_cons, ih fun d hd => hword d (List.mem_cons_of_mem c hd), openBrackets_append_singleton]
    simp [hopen, hclose]

/-- A word of the code of a line, with the code of the lines before, each of which ends with a line break. -/
structure Occurrence where
  earlier : Text
  run : Text.Run

namespace Occurrence

/-- All the code before the word. -/
def preceding (occurrence : Occurrence) : Text :=
  occurrence.earlier ++ occurrence.run.before

/-- Whether the word counts: no bracket is open, and no dot stands right before it. -/
def isActive (occurrence : Occurrence) : Bool :=
  openBrackets occurrence.preceding == 0 && occurrence.run.before.getLast? != some '.'

/-- Whether the word opens a block. -/
def opens (occurrence : Occurrence) : Bool :=
  occurrence.isActive && (blockWords.contains occurrence.run.word ||
    (occurrence.run.word == "type".toList &&
      (Text.lastWord occurrence.preceding == "abstract".toList ||
        Text.lastWord occurrence.preceding == "primitive".toList)))

/-- Whether the word closes a block. -/
def closes (occurrence : Occurrence) : Bool :=
  occurrence.isActive && occurrence.run.word == "end".toList

/-- The depth of blocks after the word. -/
def step (depth : Nat) (occurrence : Occurrence) : Nat :=
  if occurrence.opens then depth + 1 else if occurrence.closes then depth - 1 else depth

/-- The depth of blocks after some words. -/
def depthAfter (depth : Nat) (occurrences : List Occurrence) : Nat :=
  occurrences.foldl step depth

/-- One of the words brings the depth back to zero. -/
def Returns (depth : Nat) (occurrences : List Occurrence) : Prop :=
  ∃ done occurrence later, occurrences = done ++ occurrence :: later ∧ 0 < depthAfter depth done ∧
    depthAfter depth (done ++ [occurrence]) = 0

theorem not_returns_nil (depth : Nat) : ¬ Returns depth [] := by
  rintro ⟨done, occurrence, later, heq, _⟩
  simp at heq

theorem returns_cons {depth : Nat} {occurrence : Occurrence} {later : List Occurrence} :
    Returns depth (occurrence :: later) ↔
      0 < depth ∧ step depth occurrence = 0 ∨ Returns (step depth occurrence) later := by
  constructor
  · rintro ⟨done, found, rest, heq, hopen, hzero⟩
    cases done with
    | nil =>
      obtain ⟨rfl, rfl⟩ := List.cons.inj heq
      exact .inl ⟨hopen, hzero⟩
    | cons first done =>
      obtain ⟨rfl, rfl⟩ := List.cons.inj heq
      exact .inr ⟨done, found, rest, rfl, hopen, hzero⟩
  · rintro (⟨hopen, hzero⟩ | ⟨done, found, rest, rfl, hopen, hzero⟩)
    · exact ⟨[], occurrence, later, rfl, hopen, hzero⟩
    · exact ⟨occurrence :: done, found, rest, rfl, hopen, hzero⟩

/-- While no word brings the depth back to zero it stays above zero. -/
theorem depthAfter_pos {depth : Nat} {occurrences : List Occurrence} (hdepth : 0 < depth)
    (hgoes : ¬ Returns depth occurrences) : 0 < depthAfter depth occurrences := by
  induction occurrences generalizing depth with
  | nil => exact hdepth
  | cons occurrence later ih =>
    rw [returns_cons, not_or] at hgoes
    exact ih (Nat.pos_of_ne_zero fun hzero => hgoes.1 ⟨hdepth, hzero⟩) hgoes.2

end Occurrence

namespace WordScan

/-- The scan has read `before` and then the name characters `word` of a line that follows the code `earlier`, and
the depth was `depth` when the word began. -/
structure Tracks (earlier before word : Text) (depth : Nat) (scan : WordScan) : Prop where
  depth_eq : scan.depth = depth
  brackets_eq : scan.brackets = openBrackets (earlier ++ before)
  previous_eq : scan.previous = Text.lastWord (earlier ++ before)
  word_eq : scan.word = word.reverse
  word_name : ∀ c ∈ word, isNameChar c = true
  afterDot_eq : word ≠ [] → scan.afterDot = (before.getLast? == some '.')
  lastChar_eq : word = [] → (scan.lastChar == '.') = (before.getLast? == some '.')
  isOpen : scan.closed = false
  breaks : ∀ c ∈ (earlier ++ before).getLast?, isNameChar c = false

variable {earlier before word : Text} {depth : Nat} {scan : WordScan} {c : Char}

theorem Tracks.step_name (htracks : Tracks earlier before word depth scan) (hc : isNameChar c = true) :
    Tracks earlier before (word ++ [c]) depth (scan.step c) := by
  have hword : scan.word.isEmpty = true ↔ word = [] := by simp [htracks.word_eq]
  simp only [step, htracks.isOpen, Bool.false_eq_true, if_false, hc, if_true]
  refine ⟨htracks.depth_eq, htracks.brackets_eq, htracks.previous_eq, by simp [htracks.word_eq],
    by simpa [or_imp, forall_and, hc] using htracks.word_name, fun _ => ?_, by simp, rfl, htracks.breaks⟩
  by_cases hnone : word = []
  · rw [if_pos (hword.2 hnone)]
    exact htracks.lastChar_eq hnone
  · rw [if_neg (mt hword.1 hnone)]
    exact htracks.afterDot_eq hnone

/-- At the end of a word the scan judges the word by what stands before it. -/
theorem Tracks.endWord_eq (htracks : Tracks earlier before word depth scan) (hne : word ≠ []) :
    scan.endWord =
      { scan with
        depth := Occurrence.step depth ⟨earlier, before, word⟩
        previous := word
        word := []
        closed := decide (0 < depth) && Occurrence.step depth ⟨earlier, before, word⟩ == 0 } := by
  have hword : ¬ scan.word.isEmpty = true := by simpa [htracks.word_eq] using hne
  have hactive : (scan.brackets == 0 && !scan.afterDot) = Occurrence.isActive ⟨earlier, before, word⟩ := by
    rw [htracks.brackets_eq, htracks.afterDot_eq hne]
    rfl
  have hopens : (Occurrence.isActive ⟨earlier, before, word⟩ && opens (Text.lastWord (earlier ++ before)) word) =
      Occurrence.opens ⟨earlier, before, word⟩ := rfl
  have hcloses : (Occurrence.isActive ⟨earlier, before, word⟩ && word == "end".toList) =
      Occurrence.closes ⟨earlier, before, word⟩ := rfl
  rw [endWord, if_neg hword]
  simp only [hactive, htracks.word_eq, List.reverse_reverse, htracks.previous_eq, htracks.depth_eq, hopens,
    Occurrence.step]
  cases hopen : Occurrence.opens ⟨earlier, before, word⟩ with
  | true => simp
  | false =>
    rw [Bool.not_false, Bool.and_true, hcloses]
    cases Occurrence.closes ⟨earlier, before, word⟩ <;> cases depth <;> simp

theorem tracks_passOver (hc : isNameChar c = false) (hdepth : scan.depth = depth)
    (hbrackets : scan.brackets = openBrackets (earlier ++ before))
    (hprevious : scan.previous = Text.lastWord (earlier ++ before)) (hword : scan.word = [])
    (hopen : scan.closed = false) : Tracks earlier (before ++ [c]) [] depth (scan.passOver c) where
  depth_eq := hdepth
  brackets_eq := by
    rw [← List.append_assoc, openBrackets_append_singleton, ← hbrackets]
    rfl
  previous_eq := by
    rw [← List.append_assoc]
    cases hblank : isBlank c with
    | true =>
      rw [Text.lastWord_append_blank hblank, ← hprevious]
      simp [passOver, hblank]
    | false =>
      rw [Text.lastWord_append_mark hblank hc]
      simp [passOver, hblank]
  word_eq := by simpa [passOver] using hword
  word_name := by simp
  afterDot_eq := by simp
  lastChar_eq := by simp [passOver]
  isOpen := hopen
  breaks := by simpa [← List.append_assoc] using hc

theorem Tracks.step_mark (htracks : Tracks earlier before [] depth scan) (hc : isNameChar c = false) :
    Tracks earlier (before ++ [c]) [] depth (scan.step c) := by
  have hended : scan.endWord = scan := by simp [endWord, htracks.word_eq]
  simp only [step, htracks.isOpen, hc, Bool.false_eq_true, if_false, hended]
  exact tracks_passOver hc htracks.depth_eq htracks.brackets_eq htracks.previous_eq htracks.word_eq htracks.isOpen

/-- A word that does not bring the depth back to zero is followed like any other. -/
theorem Tracks.step_end (htracks : Tracks earlier before word depth scan) (hne : word ≠ [])
    (hc : isNameChar c = false)
    (hgoes : ¬ (0 < depth ∧ Occurrence.step depth ⟨earlier, before, word⟩ = 0)) :
    Tracks earlier (before ++ word ++ [c]) [] (Occurrence.step depth ⟨earlier, before, word⟩) (scan.step c) := by
  have hclosed : (decide (0 < depth) && Occurrence.step depth ⟨earlier, before, word⟩ == 0) = false := by
    simpa [Bool.and_eq_false_iff, imp_iff_not_or] using hgoes
  simp only [step, htracks.isOpen, hc, Bool.false_eq_true, if_false, htracks.endWord_eq hne, hclosed]
  refine tracks_passOver hc rfl ?_ ?_ rfl rfl
  · rw [← List.append_assoc, openBrackets_append_word htracks.word_name]
    exact htracks.brackets_eq
  · rw [← List.append_assoc, Text.lastWord_append_word htracks.breaks hne htracks.word_name]

theorem Tracks.step_return (htracks : Tracks earlier before word depth scan) (hne : word ≠ [])
    (hc : isNameChar c = false) (hopen : 0 < depth)
    (hzero : Occurrence.step depth ⟨earlier, before, word⟩ = 0) :
    (scan.step c).closed = true ∧ (scan.step c).depth = 0 := by
  simp [step, htracks.isOpen, hc, htracks.endWord_eq hne, hopen, hzero]

theorem foldl_step_closed (hclosed : scan.closed = true) (code : Text) : code.foldl step scan = scan := by
  induction code with
  | nil => rfl
  | cons c code ih => rw [List.foldl_cons, step, if_pos hclosed, ih]

/-- What the scan has found at the end of a line, given the words of the line that were still to come. -/
structure Finds (text : Text) (depth : Nat) (occurrences : List Occurrence) (scan : WordScan) : Prop where
  returns : Occurrence.Returns depth occurrences → scan.depth = 0
  depth_eq : ¬ Occurrence.Returns depth occurrences → scan.depth = Occurrence.depthAfter depth occurrences
  brackets_eq : ¬ Occurrence.Returns depth occurrences → scan.brackets = openBrackets text
  previous_eq : ¬ Occurrence.Returns depth occurrences → scan.previous = Text.lastWord text

theorem Finds.of_tracks (htracks : Tracks earlier before [] depth scan) : Finds (earlier ++ before) depth [] scan :=
  ⟨fun h => absurd h (Occurrence.not_returns_nil depth), fun _ => htracks.depth_eq, fun _ => htracks.brackets_eq,
    fun _ => htracks.previous_eq⟩

theorem Finds.of_return {text : Text} {occurrence : Occurrence} (later : List Occurrence) (hopen : 0 < depth)
    (hzero : Occurrence.step depth occurrence = 0) (hdepth : scan.depth = 0) :
    Finds text depth (occurrence :: later) scan := by
  have hreturns : Occurrence.Returns depth (occurrence :: later) := Occurrence.returns_cons.2 (.inl ⟨hopen, hzero⟩)
  exact ⟨fun _ => hdepth, fun h => absurd hreturns h, fun h => absurd hreturns h, fun h => absurd hreturns h⟩

theorem Finds.cons {text : Text} {occurrence : Occurrence} {later : List Occurrence}
    (hgoes : ¬ (0 < depth ∧ Occurrence.step depth occurrence = 0))
    (hfinds : Finds text (Occurrence.step depth occurrence) later scan) :
    Finds text depth (occurrence :: later) scan := by
  have hreturns : Occurrence.Returns depth (occurrence :: later) ↔
      Occurrence.Returns (Occurrence.step depth occurrence) later :=
    Occurrence.returns_cons.trans (or_iff_right hgoes)
  exact ⟨fun h => hfinds.returns (hreturns.1 h), fun h => hfinds.depth_eq (mt hreturns.2 h),
    fun h => hfinds.brackets_eq (mt hreturns.2 h), fun h => hfinds.previous_eq (mt hreturns.2 h)⟩

/-- The scan reads the rest of a line word by word. -/
theorem Tracks.finds (htracks : Tracks earlier before word depth scan) (rest : Text) :
    Finds (earlier ++ (before ++ word ++ rest ++ [' '])) depth
      ((Text.runsFrom before word rest).map (Occurrence.mk earlier)) ((rest ++ [' ']).foldl step scan) := by
  -- the space behind the line ends a word that goes up to the end of it
  have hspace : isNameChar ' ' = false := by decide
  induction rest generalizing before word depth scan with
  | nil =>
    rw [Text.runsFrom, Text.endedRun, List.nil_append, List.append_nil, List.foldl_cons, List.foldl_nil]
    by_cases hne : word = []
    · subst hne
      rw [if_pos rfl, List.map_nil, List.append_nil]
      exact .of_tracks (htracks.step_mark hspace)
    · rw [if_neg hne]
      by_cases hreturn : 0 < depth ∧ Occurrence.step depth ⟨earlier, before, word⟩ = 0
      · exact .of_return _ hreturn.1 hreturn.2 (htracks.step_return hne hspace hreturn.1 hreturn.2).2
      · exact .cons hreturn (.of_tracks (htracks.step_end hne hspace hreturn))
  | cons c rest ih =>
    rw [Text.runsFrom, List.cons_append, List.foldl_cons]
    by_cases hc : isNameChar c = true
    · rw [if_pos hc]
      simpa using ih (htracks.step_name hc)
    · have hmark : isNameChar c = false := by simpa using hc
      rw [if_neg hc, Text.endedRun]
      by_cases hne : word = []
      · subst hne
        simpa using ih (htracks.step_mark hmark)
      · rw [if_neg hne, List.map_append, List.map_cons, List.map_nil, List.singleton_append]
        by_cases hreturn : 0 < depth ∧ Occurrence.step depth ⟨earlier, before, word⟩ = 0
        · obtain ⟨hclosed, hzero⟩ := htracks.step_return hne hmark hreturn.1 hreturn.2
          rw [foldl_step_closed hclosed]
          exact .of_return _ hreturn.1 hreturn.2 hzero
        · refine .cons hreturn ?_
          simpa using ih (htracks.step_end hne hmark hreturn)

/-- The scan of a line judges the words of the line by the code before them. -/
theorem finds_readLine (hearlier : ∀ c ∈ earlier.getLast?, isNameChar c = false) (depth : Nat) (code : Text) :
    Finds (earlier ++ (code ++ ['\n'])) depth ((Text.runs code).map (Occurrence.mk earlier))
      (readLine depth (openBrackets earlier) (Text.lastWord earlier) code) := by
  have htracks : Tracks earlier [] [] depth
      ⟨depth, openBrackets earlier, Text.lastWord earlier, [], false, ' ', false⟩ :=
    ⟨rfl, by simp, by simp, rfl, by simp, by simp, by simp, rfl, by simpa using hearlier⟩
  have hbreak : Text.lastWord (earlier ++ (code ++ ['\n'])) = Text.lastWord (earlier ++ (code ++ [' '])) := by
    rw [← List.append_assoc, ← List.append_assoc, Text.lastWord_append_blank (by decide),
      Text.lastWord_append_blank (by decide)]
  have hbrackets : openBrackets (earlier ++ (code ++ ['\n'])) = openBrackets (earlier ++ (code ++ [' '])) := by
    rw [← List.append_assoc, ← List.append_assoc, openBrackets_append_singleton, openBrackets_append_singleton]
    rfl
  obtain ⟨hreturns, hdepth, hopen, hprevious⟩ := htracks.finds code
  exact ⟨hreturns, hdepth, fun h => (hopen h).trans hbrackets.symm, fun h => (hprevious h).trans hbreak.symm⟩

end WordScan

end Outline
