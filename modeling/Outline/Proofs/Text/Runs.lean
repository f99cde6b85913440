import Mathlib.Data.List.TakeWhile
import Outline.Proofs.Grammar.Names

namespace Outline

namespace Text

/-- A run of name characters, with what stands before it in its text. -/
structure Run where
  before : Text
  word : Text
deriving DecidableEq

/-- A run is a word of the text when it is not empty and neither neighbour of it is a name character. -/
structure IsRun (t : Text) (run : Run) : Prop where
  word_ne : run.word ≠ []
  all_name : ∀ c ∈ run.word, isNameChar c = true
  before_ends : ∀ c ∈ run.before.getLast?, isNameChar c = false
  exists_after : ∃ after, t = run.before ++ (run.word ++ after) ∧ ∀ c ∈ after.head?, isNameChar c = false

/-- The run that ends here, if any name character has been met since `before`. -/
def endedRun (before word : Text) : List Run :=
  if word = [] then [] else [⟨before, word⟩]

/-- The words of a text of which `before` has been read and then the name characters `word`. -/
def runsFrom (before word : Text) : Text → List Run
  | [] => endedRun before word
  | c :: rest =>
    if isNameChar c then runsFrom before (word ++ [c]) rest
    else endedRun before word ++ runsFrom (before ++ word ++ [c]) [] rest

/-- The words of a text. -/
def runs (t : Text) : List Run :=
  runsFrom [] [] t

theorem takeWhile_eq_word {word after : Text} (hword : ∀ c ∈ word, isNameChar c = true)
    (hafter : ∀ c ∈ after.head?, isNameChar c = false) : (word ++ after).takeWhile isNameChar = word := by
  have hnone : after.takeWhile isNameChar = [] := by
    cases after with
    | nil => rfl
    | cons c after => simp [hafter c rfl]
  rw [List.takeWhile_append_of_pos hword, hnone, List.append_nil]

variable {before word rest : Text} {run : Run}

/-- The only word that begins at `before` or inside the name characters after it is made of all of them. -/
theorem IsRun.eq_of_le {after : Text} (hrun : IsRun (before ++ (word ++ after)) run)
    (hword : ∀ c ∈ word, isNameChar c = true) (hafter : ∀ c ∈ after.head?, isNameChar c = false)
    (hle : before.length ≤ run.before.length) (hlt : run.before.length ≤ before.length + word.length) :
    word ≠ [] ∧ run = ⟨before, word⟩ := by
  obtain ⟨start, found⟩ := run
  obtain ⟨hne, hall, hends, later, heq, hlater⟩ := hrun
  simp only at hne hall hends heq hle hlt
  obtain ⟨inner, rfl⟩ : before <+: start := List.prefix_of_prefix_length_le (List.prefix_append _ _) ⟨_, heq.symm⟩ hle
  rw [List.append_assoc, List.append_cancel_left_eq] at heq
  have hinner : inner <+: word := by
    refine List.prefix_of_prefix_length_le ⟨_, heq.symm⟩ (List.prefix_append _ _) ?_
    simpa using hlt
  -- a word that began later would follow a name character
  obtain rfl : inner = [] := by
    by_contra hsome
    have hlast := hends (inner.getLast hsome) (by simp [List.getLast?_append, List.getLast?_eq_some_getLast hsome])
    rw [hword _ (hinner.subset (List.getLast_mem hsome))] at hlast
    cases hlast
  rw [List.nil_append] at heq
  have hsame : word = found := by
    rw [← takeWhile_eq_word hword hafter, heq, takeWhile_eq_word hall hlater]
  subst hsame
  exact ⟨hne, by simp⟩

theorem mem_endedRun : run ∈ endedRun before word ↔ word ≠ [] ∧ run = ⟨before, word⟩ := by
  unfold endedRun
  split
  · next hnone => simp [hnone]
  · next hsome => simp [hsome]

theorem isRun_endedRun {after : Text} (hbefore : ∀ c ∈ before.getLast?, isNameChar c = false)
    (hword : ∀ c ∈ word, isNameChar c = true) (hafter : ∀ c ∈ after.head?, isNameChar c = false)
    (hmem : run ∈ endedRun before word) : IsRun (before ++ (word ++ after)) run := by
  obtain ⟨hne, rfl⟩ := mem_endedRun.1 hmem
  exact ⟨hne, hword, hbefore, after, rfl, hafter⟩

theorem mem_runsFrom_iff (hbefore : ∀ c ∈ before.getLast?, isNameChar c = false)
    (hword : ∀ c ∈ word, isNameChar c = true) :
    run ∈ runsFrom before word rest ↔ IsRun (before ++ (word ++ rest)) run ∧ before.length ≤ run.before.length := by
  induction rest generalizing before word with
  | nil =>
    rw [runsFrom]
    constructor
    · intro hmem
      refine ⟨isRun_endedRun hbefore hword (by simp) hmem, ?_⟩
      rw [(mem_endedRun.1 hmem).2]
    · rintro ⟨hrun, hle⟩
      refine mem_endedRun.2 (hrun.eq_of_le hword (by simp) hle ?_)
      obtain ⟨_, _, _, after, heq, _⟩ := hrun
      have hlength := congrArg List.length heq
      simp at hlength
      omega
  | cons c rest ih =>
    rw [runsFrom]
    by_cases hc : isNameChar c = true
    · rw [if_pos hc, ih hbefore (by simpa [or_imp, forall_and, hc] using hword)]
      simp
    · have hc' : isNameChar c = false := by simpa using hc
      have hshape : before ++ (word ++ c :: rest) = before ++ word ++ [c] ++ ([] ++ rest) := by simp
      rw [if_neg hc, List.mem_append, ih (by simp [hc']) (by simp), ← hshape]
      simp only [List.length_append, List.length_cons, List.length_nil]
      constructor
      · rintro (hmem | ⟨hrun, hle⟩)
        · refine ⟨isRun_endedRun hbefore hword (by simp [hc']) hmem, ?_⟩
          rw [(mem_endedRun.1 hmem).2]
        · exact ⟨hrun, by omega⟩
      · rintro ⟨hrun, hle⟩
        rcases Nat.lt_or_ge (before.length + word.length) run.before.length with hlt | hge
        · exact .inr ⟨hrun, by omega⟩
        · exact .inl (mem_endedRun.2 (hrun.eq_of_le hword (by simp [hc']) hle hge))

/-- The words of a text are its maximal runs of name characters. -/
theorem mem_runs_iff {t : Text} : run ∈ runs t ↔ IsRun t run := by
  rw [runs, mem_runsFrom_iff (by simp) (by simp)]
  simp

theorem pairwise_runsFrom (hbefore : ∀ c ∈ before.getLast?, isNameChar c = false)
    (hword : ∀ c ∈ word, isNameChar c = true) :
    (runsFrom before word rest).Pairwise fun first second => first.before.length < second.before.length := by
  have hended : (endedRun before word).Pairwise fun first second => first.before.length < second.before.length := by
    unfold endedRun
    split <;> simp
  induction rest generalizing before word with
  | nil => exact hended
  | cons c rest ih =>
    rw [runsFrom]
    split
    · next hc =>
      refine ih hbefore (by simpa [or_imp, forall_and, hc] using hword) ?_
      simp [endedRun]
    · next hc =>
      have hc' : ∀ d ∈ (before ++ word ++ [c]).getLast?, isNameChar d = false := by simpa using hc
      refine List.pairwise_append.2 ⟨hended, ih hc' (by simp) (by simp [endedRun]), ?_⟩
      intro first hfirst second hsecond
      have hle := ((mem_runsFrom_iff hc' (by simp)).1 hsecond).2
      obtain ⟨-, rfl⟩ := mem_endedRun.1 hfirst
      simp only [List.length_append, List.length_cons, List.length_nil] at hle ⊢
      omega

/-- The words of a text come in the order in which they stand. -/
theorem pairwise_runs (t : Text) :
    (runs t).Pairwise fun first second => first.before.length < second.before.length :=
  pairwise_runsFrom (by simp) (by simp)

/-- The word at the end of a text, white space after it aside; nothing if the text ends with something else. -/
def lastWord (t : Text) : Text :=
  ((t.reverse.dropWhile isBlank).takeWhile isNameChar).reverse

@[simp]
theorem lastWord_nil : lastWord [] = [] := rfl

theorem lastWord_append_blank {c : Char} (hblank : isBlank c = true) (t : Text) :
    lastWord (t ++ [c]) = lastWord t := by
  simp [lastWord, hblank]

theorem lastWord_append_mark {c : Char} (hblank : isBlank c = false) (hname : isNameChar c = false) (t : Text) :
    lastWord (t ++ [c]) = [] := by
  simp [lastWord, hblank, hname]

theorem lastWord_append_word {t : Text} (ht : ∀ c ∈ t.getLast?, isNameChar c = false) (hne : word ≠ [])
    (hword : ∀ c ∈ word, isNameChar c = true) : lastWord (t ++ word) = word := by
  have hvisible : (word.reverse ++ t.reverse).dropWhile isBlank = word.reverse ++ t.reverse := by
    obtain ⟨c, rest, hreverse⟩ := List.exists_cons_of_ne_nil (List.reverse_ne_nil_iff.2 hne)
    have hc : isBlank c = false :=
      not_blank_of_isNameChar (hword c (List.mem_reverse.1 (hreverse ▸ List.mem_cons_self)))
    rw [hreverse, List.cons_append, List.dropWhile_cons_of_neg (by simp [hc])]
  rw [lastWord, List.reverse_append, hvisible,
    takeWhile_eq_word (by simpa using hword) (by simpa [List.head?_reverse] using ht), List.reverse_reverse]

end Text

end Outline
