import Outline.Grammar.Rust
import Outline.Proofs.Declaration.Order
import Outline.Proofs.Scan.Step

namespace Outline.Grammar

variable {grammar : Grammar} {limits : Limits}

/-- What stands inside a declaration is ordered within its interior if every scan of the interior is. -/
theorem scanInside_ordered_of_scan {depth index : Nat} (heading : Heading) {extent : Extent} {rest : List Text}
    (hscan : ∀ (carry : Carry) (progress : Progress), Declaration.Ordered (extent.headerEnd + 1 + 1)
      (extent.headerEnd + 1 + (grammar.interior index extent rest).length)
      (grammar.scanLines limits (depth + 1) (extent.headerEnd + 1) carry progress
        (grammar.interior index extent rest)).1)
    (declared : Declaration) (noted : Progress) :
    Declaration.Ordered (extent.headerEnd + 2) (grammar.interiorLast extent + 1)
      (grammar.scanInside limits depth index heading extent declared noted rest).1 := by
  rcases scanInside_cases grammar limits depth index heading extent declared noted rest with
    ⟨_, hinside⟩ | ⟨_, _, hinside⟩ | ⟨hopen, _, hinside⟩ <;> rw [hinside]
  · exact .nil
  · exact .nil
  · have hle := headerEnd_le_interiorLast grammar (Bool.and_eq_true_iff.1 hopen).2
    have hlength := (length_interior_le grammar index extent rest).1
    exact (hscan _ _).mono (Nat.le_refl _) (by omega)

/-- A scan of a window returns an ordered list of declarations within the lines of the window. -/
theorem scanLines_ordered (grammar : Grammar) (limits : Limits) (window : List Text) (depth index : Nat)
    (carry : Carry) (progress : Progress) :
    Declaration.Ordered (index + 1) (index + window.length)
      (grammar.scanLines limits depth index carry progress window).1 := by
  induction window using window_induction generalizing depth index carry progress with
  | nil =>
    rw [scanLines_nil]
    exact .nil
  | cons line rest ih =>
    rw [List.length_cons]
    by_cases hstopped : progress.exhausted = true
    · rw [scanLines_exhausted hstopped]
      exact .nil
    have hrunning : progress.exhausted = false := by simpa using hstopped
    cases hrole : grammar.roleOf carry line rest with
    | passed further carried =>
      rw [scanLines_passed hrunning hrole]
      have hfurther := further_roleOf_le grammar carry line rest
      have hlength : (rest.drop further).length = rest.length - further := List.length_drop
      rw [hrole] at hfurther
      simp only [LineRole.further] at hfurther
      exact (ih (rest.drop further) (by omega) _ _ _ _).mono (by omega) (by omega)
    | heads heading attrs pending skipped =>
      by_cases hfull : limits.maxDeclarations ≤ progress.emitted
      · rw [scanLines_full hrunning hrole hfull]
        exact .nil
      obtain ⟨extent, hextent⟩ : ∃ extent, grammar.extent limits heading.rule.body index (line :: rest) =
        extent := ⟨_, rfl⟩
      by_cases hblank : (Text.trim heading.name).isEmpty = true
      · rw [scanLines_rejected hrunning hrole (Nat.not_le.1 hfull) hextent hblank]
        exact (ih rest (Nat.le_refl _) _ _ _ _).mono (by omega) (by omega)
      · obtain ⟨declared, hdeclared⟩ := exists_declaration hblank
        rw [scanLines_declared hrunning hrole (Nat.not_le.1 hfull) hextent hdeclared]
        obtain ⟨hstart, hheader, hlast⟩ :=
          hextent ▸ grammar.extent_bounds limits heading.rule.body index line rest
        obtain ⟨_, hstartLine, hendLine, _⟩ := of_declaration?_eq_some hdeclared (by omega)
        have hinner := scanInside_ordered_of_scan heading (fun _ _ =>
          ih _ (length_interior_le grammar index extent rest).2 (depth + 1) _ _ _) declared
          (progress.noteExtent index heading extent)
        have hlength : (rest.drop (extent.last - index)).length = rest.length - (extent.last - index) :=
          List.length_drop
        have hinterior := interiorLast_le grammar extent
        dsimp only
        rw [hinner.map_clampInto]
        refine .cons ?_ ?_ ?_ ?_ ?_
        · exact Nat.le_of_eq hstartLine.symm
        · change declared.startLine ≤ declared.endLine
          omega
        · change declared.endLine ≤ index + (rest.length + 1)
          omega
        · change Declaration.Ordered (declared.startLine + 1) declared.endLine _
          exact hinner.mono (by omega) (by omega)
        · change Declaration.Ordered (declared.endLine + 1) _ _
          exact (ih (rest.drop (extent.last - index)) (by omega) _ _ _ _).mono (by omega) (by omega)

/-- The outline of a text is well placed: its declarations lie within the lines of the text, one after the other, and
the declarations inside one lie within its range behind its first line. Nothing is assumed of the grammar, the limits
and the text. The step that keeps the children of a declaration inside its interior has nothing to do, whatever is
inside. -/
theorem scan_wellPlaced (grammar : Grammar) (limits : Limits) (t : Text) :
    Declaration.WellPlaced (Text.lines t).length (grammar.scan limits t).1 ∧
      ∀ (depth index : Nat) (extent : Extent) (progress : Progress) (rest : List Text),
        extent.hasInterior = true →
          ∀ child ∈ (grammar.scanLines limits (depth + 1) (extent.headerEnd + 1) .start progress
              (grammar.interior index extent rest)).1,
            child.clampInto (extent.headerEnd + 2) (grammar.interiorLast extent + 1) = child := by
  refine ⟨Declaration.Ordered.wellPlaced ?_, ?_⟩
  · simpa only [Nat.zero_add, scan] using scanLines_ordered grammar limits (Text.lines t) 0 0 .start .start
  · intro depth index extent progress rest hinterior child hchild
    have hordered := scanLines_ordered grammar limits (grammar.interior index extent rest) (depth + 1)
      (extent.headerEnd + 1) .start progress
    obtain ⟨hfirst, hrange, hlast⟩ := hordered.bounds child (Declaration.Ordered.mem_walkAll_of_mem hchild)
    have hle := headerEnd_le_interiorLast grammar hinterior
    have hlength := (length_interior_le grammar index extent rest).1
    exact Declaration.clampInto_eq_self (by omega) hrange (by omega)

/-- A module of three lines with a function inside. -/
theorem scan_wellPlaced_module :
    Declaration.WellPlaced 3 (rust.scan {} "mod m \x7b\n fn f() \x7b\x7d\n\x7d\n".toList).1 ∧
      Extent.hasInterior ⟨0, 2, .matched⟩ = true ∧
      (rust.scanLines {} 1 1 .start .start [" fn f() \x7b\x7d".toList]).1.length = 1 ∧
      ∀ child ∈ (rust.scanLines {} 1 1 .start .start [" fn f() \x7b\x7d".toList]).1,
        child.clampInto 2 2 = child := by
  have hinterior : Extent.hasInterior ⟨0, 2, .matched⟩ = true := by decide
  obtain ⟨hplaced, hkept⟩ := scan_wellPlaced rust {} "mod m \x7b\n fn f() \x7b\x7d\n\x7d\n".toList
  refine ⟨hplaced, hinterior, by decide +kernel, ?_⟩
  exact hkept 0 0 ⟨0, 2, .matched⟩ .start [" fn f() \x7b\x7d".toList, ['\x7d']] hinterior

/-- Keeping the lines of a child inside its parent never changes the child. -/
theorem clampInto_scanInside (grammar : Grammar) (limits : Limits) (depth index : Nat) (heading : Heading)
    (extent : Extent) (declared : Declaration) (noted : Progress) (rest : List Text) :
    (grammar.scanInside limits depth index heading extent declared noted rest).1.map
        (Declaration.clampInto (extent.headerEnd + 2) (grammar.interiorLast extent + 1)) =
      (grammar.scanInside limits depth index heading extent declared noted rest).1 :=
  (scanInside_ordered_of_scan heading (fun _ _ => scanLines_ordered grammar limits _ _ _ _ _) declared
    noted).map_clampInto

/-- The scan of a window that opens with a declaration: what stands inside is its children as it is. -/
theorem scanLines_opening {depth index : Nat} {carry skipped : Carry} {progress : Progress} {line : Text}
    {rest : List Text} {heading : Heading} {attrs : Text} {pending : Pending} {extent : Extent}
    {declared : Declaration} (hrunning : progress.exhausted = false)
    (hrole : grammar.roleOf carry line rest = .heads heading attrs pending skipped)
    (hroom : progress.emitted < limits.maxDeclarations)
    (hextent : grammar.extent limits heading.rule.body index (line :: rest) = extent)
    (hdeclared : grammar.declaration? index attrs heading extent pending (line :: rest) = some declared) :
    grammar.scanLines limits depth index carry progress (line :: rest) =
      let inner := grammar.scanInside limits depth index heading extent declared
        (progress.noteExtent index heading extent) rest
      let later :=
        grammar.scanLines limits depth (extent.last + 1) .start inner.2 (rest.drop (extent.last - index))
      (declared.withChildren inner.1 :: later.1, later.2) := by
  rw [scanLines_declared hrunning hrole hroom hextent hdeclared]
  simp only [clampInto_scanInside]

end Outline.Grammar
