import Outline.Proofs.Extent.Checked
import Outline.Proofs.Scan.Accounting
import Outline.Proofs.Scan.Geometry

namespace Outline.Grammar

variable {grammar : Grammar} {limits : Limits}

section Lines

theorem mem_guesses_scanInside {depth index line : Nat} {heading : Heading} {extent : Extent}
    {declared : Declaration} {noted : Progress} {rest : List Text}
    (hscan : line ∈ (grammar.scanLines limits (depth + 1) (extent.headerEnd + 1) .start noted.emit
        (grammar.interior index extent rest)).2.guesses →
      line ∈ noted.emit.guesses ∨ index ≤ line ∧ line < index + (rest.length + 1))
    (hmem : line ∈ (grammar.scanInside limits depth index heading extent declared noted rest).2.guesses) :
    line ∈ noted.guesses ∨ index ≤ line ∧ line < index + (rest.length + 1) := by
  rcases scanInside_cases grammar limits depth index heading extent declared noted rest with
    ⟨_, hinside⟩ | ⟨_, _, hinside⟩ | ⟨_, _, hinside⟩ <;> rw [hinside] at hmem
  · exact .inl hmem
  · refine .inl ?_
    unfold Progress.noteDepth at hmem
    split at hmem <;> exact hmem
  · exact hscan hmem

/-- A run guesses at lines of its window only. -/
theorem mem_guesses_scanLines (window : List Text) {depth index line : Nat} {carry : Carry}
    {progress : Progress}
    (hmem : line ∈ (grammar.scanLines limits depth index carry progress window).2.guesses) :
    line ∈ progress.guesses ∨ index ≤ line ∧ line < index + window.length := by
  induction window using window_induction generalizing depth index carry progress with
  | nil =>
    rw [scanLines_nil] at hmem
    exact .inl hmem
  | cons first rest ih =>
    rw [List.length_cons]
    by_cases hstopped : progress.exhausted = true
    · rw [scanLines_exhausted hstopped] at hmem
      exact .inl hmem
    have hrunning : progress.exhausted = false := by simpa using hstopped
    cases hrole : grammar.roleOf carry first rest with
    | passed further carried =>
      have htaken := further_roleOf_le grammar carry first rest
      rw [hrole, LineRole.further] at htaken
      rw [scanLines_passed hrunning hrole] at hmem
      have hlength : (rest.drop further).length = rest.length - further := List.length_drop
      exact (ih _ (by omega) hmem).imp_right fun hwithin => by omega
    | heads heading attrs pending skipped =>
      by_cases hfull : limits.maxDeclarations ≤ progress.emitted
      · rw [scanLines_full hrunning hrole hfull] at hmem
        exact .inl hmem
      have hroom := Nat.not_le.1 hfull
      obtain ⟨extent, hextent⟩ : ∃ extent, grammar.extent limits heading.rule.body index (first :: rest) =
        extent := ⟨_, rfl⟩
      -- The guess for the heading itself is at the first line of the window.
      have hnoted : line ∈ (progress.noteExtent index heading extent).guesses →
          line ∈ progress.guesses ∨ index ≤ line ∧ line < index + (rest.length + 1) := by
        rw [Progress.guesses_noteExtent, List.mem_append]
        refine Or.imp_right fun hguess => ?_
        split at hguess
        · rw [List.mem_singleton] at hguess
          omega
        · simp at hguess
      by_cases hblank : (Text.trim heading.name).isEmpty = true
      · rw [scanLines_rejected hrunning hrole hroom hextent hblank] at hmem
        rcases ih rest (Nat.le_refl _) hmem with hearlier | hwithin
        · exact hnoted hearlier
        · omega
      · obtain ⟨declared, hdeclared⟩ := exists_declaration hblank
        obtain ⟨hstart, hheader, hlast⟩ :=
          hextent ▸ grammar.extent_bounds limits heading.rule.body index first rest
        obtain ⟨hlength, hlength'⟩ := length_interior_le grammar index extent rest
        have hinterior := interiorLast_le grammar extent
        have hdrop : (rest.drop (extent.last - index)).length = rest.length - (extent.last - index) :=
          List.length_drop
        rw [scanLines_opening hrunning hrole hroom hextent hdeclared] at hmem
        rcases ih _ (by omega) hmem with hearlier | hwithin
        · refine (mem_guesses_scanInside (fun hinner => ?_) hearlier).elim hnoted .inr
          exact (ih _ hlength' hinner).imp_right fun hwithin => by omega
        · omega

end Lines

section Sums

variable {body : Body} {index : Nat} {window : List Text}

/-- With checked sums the extent of a declaration is the same, unless it is a guess whose sum is no word, on all lines
that fit into memory. Assumed is that no mark of the language is empty. -/
theorem extent?_eq (hmarks : grammar.lexicon.hasMarks = true) (limits : Limits) (body : Body)
    (hmemory : index + Text.storage window < UInt64.size) :
    grammar.extent? limits body index window =
      (grammar.blockRules limits).unlessTooLarge index (grammar.extent limits body index window) := by
  have hlines := Text.length_le_storage window
  have hfits : (grammar.blockRules limits).Fits 1 grammar.lexicon.Possible index 0 .code window :=
    ⟨Lexicon.paced_possible hmarks, Nat.one_pos, id, Lexicon.possible_code, by omega, by omega⟩
  cases body with
  | block => exact (BlockRules.runsTo_blockExtent? hfits).eq_of_hasMarks hmarks
  | statement => exact (BlockRules.runsTo_statementExtent? hfits).eq_of_hasMarks hmarks
  | line => rfl

/-- When a heading is noted, the sums of the guesses stay words exactly if the search with checked sums returns. -/
theorem guesses_noteExtent_fit_iff (hmarks : grammar.lexicon.hasMarks = true) (progress : Progress) {heading : Heading}
    {extent : Extent} (hextent : grammar.extent limits heading.rule.body index window = extent)
    (hmemory : index + Text.storage window < UInt64.size) :
    (∀ line ∈ (progress.noteExtent index heading extent).guesses, line + limits.fallbackSpan < UInt64.size) ↔
      (∀ line ∈ progress.guesses, line + limits.fallbackSpan < UInt64.size) ∧
        grammar.extent? limits heading.rule.body index window = .ok extent := by
  have hspan : (grammar.blockRules limits).limits.fallbackSpan = limits.fallbackSpan := rfl
  rw [Progress.guesses_noteExtent, List.forall_mem_append, extent?_eq hmarks limits _ hmemory, hextent,
    BlockRules.unlessTooLarge, hspan]
  cases extent.isDegraded with
  | false => simp
  | true => simp

end Sums

section Runs

/-- A run returns what the scan finds, if each guess in it is a sum that is a word. -/
theorem scanLines?_eq_some_iff {depth index : Nat} {carry : Carry} {progress : Progress}
    {window : List Text} {found : List Declaration × Progress} :
    grammar.scanLines? limits depth index carry progress window = some found ↔
      found = grammar.scanLines limits depth index carry progress window ∧
        ∀ line ∈ found.2.guesses, line + limits.fallbackSpan < UInt64.size := by
  simp only [scanLines?, Option.ite_none_right_eq_some, List.all_eq_true, decide_eq_true_eq, Option.some.injEq]
  constructor
  · rintro ⟨hfits, rfl⟩
    exact ⟨rfl, hfits⟩
  · rintro ⟨rfl, hfits⟩
    exact ⟨hfits, rfl⟩

/-- A run over lines that are few enough for the span returns, wherever the lines stand. What was guessed
before the run has to be words too. -/
theorem scanLines?_of_fits {depth index : Nat} {carry : Carry} {progress : Progress} {window : List Text}
    (hearlier : ∀ line ∈ progress.guesses, line + limits.fallbackSpan < UInt64.size)
    (hfits : index + window.length + limits.fallbackSpan ≤ UInt64.size) :
    grammar.scanLines? limits depth index carry progress window =
      some (grammar.scanLines limits depth index carry progress window) := by
  refine scanLines?_eq_some_iff.2 ⟨rfl, fun line hmem => ?_⟩
  rcases mem_guesses_scanLines window hmem with hbefore | hwithin
  · exact hearlier line hbefore
  · omega

theorem scan?_eq_some_iff {t : Text} {found : List Declaration × List String} :
    grammar.scan? limits t = some found ↔ found = grammar.scan limits t ∧
      ∀ line ∈ (grammar.scanLines limits 0 0 .start .start (Text.lines t)).2.guesses,
        line + limits.fallbackSpan < UInt64.size := by
  simp only [scan?, Option.map_eq_some_iff, scanLines?_eq_some_iff]
  constructor
  · rintro ⟨_, ⟨rfl, hfits⟩, rfl⟩
    exact ⟨rfl, hfits⟩
  · rintro ⟨rfl, hfits⟩
    exact ⟨_, ⟨rfl, hfits⟩, rfl⟩

/-- A scan of lines that are few enough for the span returns. -/
theorem scan?_of_fits {t : Text} (hfits : (Text.lines t).length + limits.fallbackSpan ≤ UInt64.size) :
    grammar.scan? limits t = some (grammar.scan limits t) := by
  rw [scan?, scanLines?_of_fits (by simp [Progress.start]) (by omega)]
  rfl

/-- A scan without a warning has guessed nothing and returns, whatever the span is. -/
theorem scan?_of_silent {t : Text} (hsilent : (grammar.scan limits t).2 = []) :
    grammar.scan? limits t = some (grammar.scan limits t) := by
  refine scan?_eq_some_iff.2 ⟨rfl, fun line hmem => ?_⟩
  have hnone := (scanLines_advances grammar limits (Text.lines t) 0 0 .start .start).silent_guesses hsilent
  rw [hnone] at hmem
  simp [Progress.start] at hmem

end Runs

end Outline.Grammar
