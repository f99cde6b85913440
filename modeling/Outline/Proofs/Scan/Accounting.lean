import Outline.Proofs.Scan.Step

namespace Outline

namespace Progress

/-- `after` comes from `before` by counting `count` declarations and perhaps adding warnings. Without a
new warning no flag has changed and nothing was guessed either. -/
structure Advances (before after : Progress) (count : Nat) : Prop where
  emitted_eq : after.emitted = before.emitted + count
  warnings_prefix : before.warnings <+: after.warnings
  guesses_grow : before.guesses <+: after.guesses
  silent : after.warnings = before.warnings →
    after.exhausted = before.exhausted ∧ after.depthWarned = before.depthWarned
  silent_guesses : after.warnings = before.warnings → after.guesses = before.guesses

variable {first second third : Progress} {m n : Nat}

theorem Advances.refl (progress : Progress) : progress.Advances progress 0 :=
  ⟨rfl, List.prefix_rfl, List.prefix_rfl, fun _ => ⟨rfl, rfl⟩, fun _ => rfl⟩

/-- When nothing was added in two steps, nothing was added in either. -/
theorem Advances.warnings_eq (hfirst : first.Advances second m) (hsecond : second.Advances third n)
    (hsilent : third.warnings = first.warnings) :
    second.warnings = first.warnings ∧ third.warnings = second.warnings := by
  have hle := hsecond.warnings_prefix.length_le
  have heq : first.warnings = second.warnings :=
    hfirst.warnings_prefix.eq_of_length_le (by rw [← hsilent]; exact hle)
  exact ⟨heq.symm, hsilent.trans heq⟩

theorem Advances.trans (hfirst : first.Advances second m) (hsecond : second.Advances third n) :
    first.Advances third (m + n) := by
  refine ⟨?_, hfirst.warnings_prefix.trans hsecond.warnings_prefix,
    hfirst.guesses_grow.trans hsecond.guesses_grow, fun hsilent => ?_, fun hsilent => ?_⟩
  · rw [hsecond.emitted_eq, hfirst.emitted_eq, Nat.add_assoc]
  · obtain ⟨hone, htwo⟩ := hfirst.warnings_eq hsecond hsilent
    obtain ⟨hexhausted, hdepth⟩ := hsecond.silent htwo
    obtain ⟨hexhausted', hdepth'⟩ := hfirst.silent hone
    exact ⟨hexhausted.trans hexhausted', hdepth.trans hdepth'⟩
  · obtain ⟨hone, htwo⟩ := hfirst.warnings_eq hsecond hsilent
    exact (hsecond.silent_guesses htwo).trans (hfirst.silent_guesses hone)

/-- Any step that adds a warning and counts nothing advances the progress. -/
theorem Advances.of_warn {before after : Progress} (message : String)
    (hemitted : after.emitted = before.emitted) (hwarnings : after.warnings = before.warnings ++ [message])
    (hguesses : before.guesses <+: after.guesses) : before.Advances after 0 := by
  have hloud : after.warnings ≠ before.warnings := by simp [hwarnings]
  refine ⟨hemitted, ?_, hguesses, fun hsilent => absurd hsilent hloud, fun hsilent => absurd hsilent hloud⟩
  rw [hwarnings]
  exact List.prefix_append _ _

theorem advances_emit (progress : Progress) : progress.Advances progress.emit 1 :=
  ⟨rfl, List.prefix_rfl, List.prefix_rfl, fun _ => ⟨rfl, rfl⟩, fun _ => rfl⟩

theorem advances_exhaust (progress : Progress) (limits : Limits) (index : Nat) :
    progress.Advances (progress.exhaust limits index) 0 :=
  .of_warn _ rfl rfl List.prefix_rfl

theorem advances_noteExtent (progress : Progress) (index : Nat) (heading : Heading) (extent : Extent) :
    progress.Advances (progress.noteExtent index heading extent) 0 := by
  unfold noteExtent
  split
  · exact .of_warn _ rfl rfl (List.prefix_append _ _)
  · exact .refl _

theorem advances_noteDepth (progress : Progress) (limits : Limits) (parent : Declaration) :
    progress.Advances (progress.noteDepth limits parent) 0 := by
  unfold noteDepth
  split
  · exact .refl _
  · exact .of_warn _ rfl rfl List.prefix_rfl

@[simp]
theorem exhausted_noteExtent (progress : Progress) (index : Nat) (heading : Heading) (extent : Extent) :
    (progress.noteExtent index heading extent).exhausted = progress.exhausted := by
  unfold noteExtent
  split <;> rfl

@[simp]
theorem emitted_noteExtent (progress : Progress) (index : Nat) (heading : Heading) (extent : Extent) :
    (progress.noteExtent index heading extent).emitted = progress.emitted :=
  (advances_noteExtent progress index heading extent).emitted_eq

/-- A guess is remembered by its line. -/
theorem guesses_noteExtent (progress : Progress) (index : Nat) (heading : Heading) (extent : Extent) :
    (progress.noteExtent index heading extent).guesses =
      progress.guesses ++ if extent.isDegraded then [index] else [] := by
  unfold noteExtent
  split <;> simp

/-- An extent that was found is not worth a word. -/
theorem noteExtent_of_found (progress : Progress) (index : Nat) (heading : Heading) {extent : Extent}
    (hfound : extent.isDegraded = false) : progress.noteExtent index heading extent = progress := by
  simp [noteExtent, hfound]

/-- A guess is always reported. -/
theorem found_of_noteExtent {progress : Progress} {index : Nat} {heading : Heading} {extent : Extent}
    (hsilent : (progress.noteExtent index heading extent).warnings = progress.warnings) :
    extent.isDegraded = false := by
  by_cases hdegraded : extent.isDegraded = true
  · rw [noteExtent, if_pos hdegraded] at hsilent
    simp [warn] at hsilent
  · simpa using hdegraded

end Progress

namespace Grammar

variable {grammar : Grammar} {limits : Limits}

theorem total_withChildren (declared : Declaration) (children : List Declaration) :
    (declared.withChildren children).total = 1 + Declaration.totalAll children := by
  simp [Declaration.withChildren, Declaration.total]

theorem totalAll_map_clampInto (first last : Nat) (children : List Declaration) :
    Declaration.totalAll (children.map (Declaration.clampInto first last)) =
      Declaration.totalAll children := by
  induction children with
  | nil => rfl
  | cons child rest ih =>
    rw [List.map_cons, Declaration.totalAll, Declaration.totalAll, ih]
    cases child
    rfl

theorem scanInside_advances_of_scan {depth index : Nat} (heading : Heading) {extent : Extent} {rest : List Text}
    (hscan : ∀ (first : Nat) (carry : Carry) (progress : Progress), progress.Advances
      (grammar.scanLines limits (depth + 1) first carry progress (grammar.interior index extent rest)).2
      (Declaration.totalAll
        (grammar.scanLines limits (depth + 1) first carry progress (grammar.interior index extent rest)).1))
    (declared : Declaration) (noted : Progress) :
    noted.Advances (grammar.scanInside limits depth index heading extent declared noted rest).2
      (1 + Declaration.totalAll
        (grammar.scanInside limits depth index heading extent declared noted rest).1) := by
  rcases scanInside_cases grammar limits depth index heading extent declared noted rest with
    ⟨_, hinside⟩ | ⟨_, _, hinside⟩ | ⟨_, _, hinside⟩ <;> rw [hinside]
  · exact noted.advances_emit
  · exact noted.advances_emit.trans (noted.emit.advances_noteDepth limits declared)
  · exact noted.advances_emit.trans (hscan _ _ _)

/-- A scan counts exactly the declarations it returns, and warns before it stops or leaves anything out. -/
theorem scanLines_advances (grammar : Grammar) (limits : Limits) (window : List Text) (depth index : Nat)
    (carry : Carry) (progress : Progress) :
    progress.Advances (grammar.scanLines limits depth index carry progress window).2
      (Declaration.totalAll (grammar.scanLines limits depth index carry progress window).1) := by
  induction window using window_induction generalizing depth index carry progress with
  | nil =>
    rw [scanLines_nil]
    exact .refl _
  | cons line rest ih =>
    by_cases hstopped : progress.exhausted = true
    · rw [scanLines_exhausted hstopped]
      exact .refl _
    have hrunning : progress.exhausted = false := by simpa using hstopped
    cases hrole : grammar.roleOf carry line rest with
    | passed further carried =>
      rw [scanLines_passed hrunning hrole]
      exact ih _ (by rw [List.length_drop]; omega) _ _ _ _
    | heads heading attrs pending skipped =>
      by_cases hfull : limits.maxDeclarations ≤ progress.emitted
      · rw [scanLines_full hrunning hrole hfull]
        exact progress.advances_exhaust limits index
      obtain ⟨extent, hextent⟩ : ∃ extent, grammar.extent limits heading.rule.body index (line :: rest) =
        extent := ⟨_, rfl⟩
      have hnoted := progress.advances_noteExtent index heading extent
      by_cases hblank : (Text.trim heading.name).isEmpty = true
      · rw [scanLines_rejected hrunning hrole (Nat.not_le.1 hfull) hextent hblank]
        simpa using hnoted.trans (ih rest (Nat.le_refl _) depth (index + 1) skipped _)
      · obtain ⟨declared, hdeclared⟩ := exists_declaration hblank
        rw [scanLines_declared hrunning hrole (Nat.not_le.1 hfull) hextent hdeclared]
        have hinner := scanInside_advances_of_scan heading
          (ih _ (length_interior_le grammar index extent rest).2 (depth + 1)) declared
          (progress.noteExtent index heading extent)
        have hlater := ih (rest.drop (extent.last - index)) (by rw [List.length_drop]; omega) depth
          (extent.last + 1) .start
        have hall := hnoted.trans (hinner.trans (hlater _))
        simpa only [Declaration.totalAll, total_withChildren, totalAll_map_clampInto, Nat.zero_add] using hall

/-- A declaration counts itself and all that stands inside it. -/
theorem scanInside_advances (grammar : Grammar) (limits : Limits) (depth index : Nat) (heading : Heading)
    (extent : Extent) (declared : Declaration) (noted : Progress) (rest : List Text) :
    noted.Advances (grammar.scanInside limits depth index heading extent declared noted rest).2
      (1 + Declaration.totalAll
        (grammar.scanInside limits depth index heading extent declared noted rest).1) :=
  scanInside_advances_of_scan heading (fun _ _ _ => scanLines_advances grammar limits _ _ _ _ _) declared noted

end Grammar

end Outline
