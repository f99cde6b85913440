import Outline.Grammar.Rust
import Outline.Proofs.Scan.Guesses
import Outline.Proofs.Scan.Room
import Outline.Proofs.Text.Lines
import Outline.Proofs.Text.Solid

namespace Outline

/-- Without the carriage return of its line end a blank line is still blank. -/
theorem Text.trim_dropReturn_of_blank {line : Text} (hblank : isBlankText line = true) :
    (trim (dropReturn line.reverse).reverse).isEmpty = true := by
  rw [trim_dropReturn, trim_blank (List.all_eq_true.1 hblank)]
  rfl

namespace Progress

/-- Two runs have counted the same declarations and warned equally often, and neither has been stopped or
has left a container closed without the other. One has guessed `k` lines further down than the other. -/
structure InStep (k : Nat) (moved progress : Progress) : Prop where
  emitted_eq : moved.emitted = progress.emitted
  length_warnings_eq : moved.warnings.length = progress.warnings.length
  guesses_eq : moved.guesses = progress.guesses.map (· + k)
  exhausted_eq : moved.exhausted = progress.exhausted
  depthWarned_eq : moved.depthWarned = progress.depthWarned

namespace InStep

variable {k : Nat} {moved progress : Progress}

theorem start (k : Nat) : InStep k .start .start :=
  ⟨rfl, rfl, rfl, rfl, rfl⟩

theorem warn (hstep : InStep k moved progress) (message message' : String) :
    InStep k (moved.warn message) (progress.warn message') := by
  obtain ⟨hemitted, hwarnings, hguesses, hexhausted, hdepth⟩ := hstep
  refine ⟨hemitted, ?_, hguesses, hexhausted, hdepth⟩
  simp [Progress.warn, hwarnings]

theorem emit (hstep : InStep k moved progress) : InStep k moved.emit progress.emit := by
  obtain ⟨hemitted, hwarnings, hguesses, hexhausted, hdepth⟩ := hstep
  exact ⟨congrArg (· + 1) hemitted, hwarnings, hguesses, hexhausted, hdepth⟩

theorem exhaust (hstep : InStep k moved progress) (limits : Limits) (index index' : Nat) :
    InStep k (moved.exhaust limits index) (progress.exhaust limits index') := by
  obtain ⟨hemitted, hwarnings, hguesses, _, hdepth⟩ := hstep.warn _ _
  exact ⟨hemitted, hwarnings, hguesses, rfl, hdepth⟩

theorem noteExtent (hstep : InStep k moved progress) (index : Nat) (heading : Heading) (extent : Extent) :
    InStep k (moved.noteExtent (index + k) heading (extent.shift k))
      (progress.noteExtent index heading extent) := by
  unfold Progress.noteExtent
  rw [Extent.isDegraded_shift]
  cases extent.isDegraded with
  | true =>
    obtain ⟨hemitted, hwarnings, _, hexhausted, hdepth⟩ := hstep.warn _ _
    refine ⟨hemitted, hwarnings, ?_, hexhausted, hdepth⟩
    change moved.guesses ++ [index + k] = (progress.guesses ++ [index]).map (· + k)
    rw [List.map_append, hstep.guesses_eq, List.map_singleton]
  | false => exact hstep

theorem noteDepth (hstep : InStep k moved progress) (limits : Limits) (parent parent' : Declaration) :
    InStep k (moved.noteDepth limits parent) (progress.noteDepth limits parent') := by
  simp only [Progress.noteDepth, hstep.depthWarned_eq]
  split
  · exact hstep
  · obtain ⟨hemitted, hwarnings, hguesses, hexhausted, _⟩ := hstep.warn _ _
    exact ⟨hemitted, hwarnings, hguesses, hexhausted, rfl⟩

end InStep

end Progress

namespace Grammar

variable {grammar : Grammar} {limits : Limits}

/-- One run has found what the other has found, `k` lines further down, in step with it. -/
structure Translated (k : Nat) (moved found : List Declaration × Progress) : Prop where
  declarations_eq : moved.1 = Declaration.shiftAll k found.1
  inStep : Progress.InStep k moved.2 found.2

theorem scanInside_translated_of_scan {depth index k : Nat} (heading : Heading) {extent : Extent}
    {rest : List Text} {moved noted : Progress} (declared : Declaration)
    (hstep : Progress.InStep k moved noted)
    (hscan : ∀ {moved progress : Progress}, Progress.InStep k moved progress → Translated k
      (grammar.scanLines limits (depth + 1) (extent.headerEnd + 1 + k) .start moved
        (grammar.interior index extent rest))
      (grammar.scanLines limits (depth + 1) (extent.headerEnd + 1) .start progress
        (grammar.interior index extent rest))) :
    Translated k
      (grammar.scanInside limits depth (index + k) heading (extent.shift k) (declared.shift k) moved rest)
      (grammar.scanInside limits depth index heading extent declared noted rest) := by
  simp only [scanInside, Extent.hasInterior_shift, Extent.shift_headerEnd, interior_shift]
  split
  · split
    · exact ⟨rfl, hstep.emit.noteDepth limits _ _⟩
    · rw [Nat.add_right_comm]
      exact hscan hstep.emit
  · exact ⟨rfl, hstep.emit⟩

/-- A run over the same lines at another place finds the same, in step with the first run. -/
theorem scanLines_translated (window : List Text) {depth index k : Nat} {carry : Carry}
    {moved progress : Progress} (hstep : Progress.InStep k moved progress) :
    Translated k (grammar.scanLines limits depth (index + k) carry moved window)
      (grammar.scanLines limits depth index carry progress window) := by
  induction window using window_induction generalizing depth index carry moved progress with
  | nil =>
    rw [scanLines_nil, scanLines_nil]
    exact ⟨rfl, hstep⟩
  | cons line rest ih =>
    by_cases hstopped : progress.exhausted = true
    · rw [scanLines_exhausted hstopped, scanLines_exhausted (hstep.exhausted_eq.trans hstopped)]
      exact ⟨rfl, hstep⟩
    have hrunning : progress.exhausted = false := by simpa using hstopped
    have hrunning' : moved.exhausted = false := hstep.exhausted_eq.trans hrunning
    cases hrole : grammar.roleOf carry line rest with
    | passed further carried =>
      have htaken := further_roleOf_le grammar carry line rest
      rw [hrole, LineRole.further] at htaken
      have hplace : index + k + 1 + further = index + 1 + further + k := by omega
      have hlength : (rest.drop further).length = rest.length - further := List.length_drop
      rw [scanLines_passed hrunning hrole, scanLines_passed hrunning' hrole, hplace]
      exact ih _ (by omega) hstep
    | heads heading attrs pending skipped =>
      by_cases hfull : limits.maxDeclarations ≤ progress.emitted
      · rw [scanLines_full hrunning hrole hfull,
          scanLines_full hrunning' hrole (by rwa [hstep.emitted_eq])]
        exact ⟨rfl, hstep.exhaust limits _ _⟩
      have hroom := Nat.not_le.1 hfull
      have hroom' : moved.emitted < limits.maxDeclarations := by rwa [hstep.emitted_eq]
      obtain ⟨extent, hextent⟩ : ∃ extent, grammar.extent limits heading.rule.body index (line :: rest) =
        extent := ⟨_, rfl⟩
      have hmoved : grammar.extent limits heading.rule.body (index + k) (line :: rest) = extent.shift k := by
        rw [← hextent]
        exact grammar.extent_shift limits heading.rule.body index k (List.cons_ne_nil line rest)
      have hnoted := hstep.noteExtent index heading extent
      by_cases hblank : (Text.trim heading.name).isEmpty = true
      · rw [scanLines_rejected hrunning hrole hroom hextent hblank,
          scanLines_rejected hrunning' hrole hroom' hmoved hblank, Nat.add_right_comm]
        exact ih rest (Nat.le_refl _) hnoted
      · obtain ⟨declared, hdeclared⟩ := exists_declaration hblank
        have hdeclared' : grammar.declaration? (index + k) attrs heading (extent.shift k) pending
            (line :: rest) = some (declared.shift k) := by
          rw [declaration?_shift, hdeclared, Option.map_some]
        obtain ⟨hstart, hheader, hlast⟩ :=
          hextent ▸ grammar.extent_bounds limits heading.rule.body index line rest
        obtain ⟨hlength, hlength'⟩ := length_interior_le grammar index extent rest
        have hinterior := interiorLast_le grammar extent
        have hinside : Translated k
            (grammar.scanInside limits depth (index + k) heading (extent.shift k) (declared.shift k)
              (moved.noteExtent (index + k) heading (extent.shift k)) rest)
            (grammar.scanInside limits depth index heading extent declared
              (progress.noteExtent index heading extent) rest) :=
          scanInside_translated_of_scan heading declared hnoted
            fun hstep => ih _ hlength' hstep
        have hplace : (extent.shift k).last - (index + k) = extent.last - index := by
          rw [Extent.shift_last]
          omega
        have hdrop : (rest.drop (extent.last - index)).length = rest.length - (extent.last - index) :=
          List.length_drop
        have hlater : Translated k
            (grammar.scanLines limits depth (extent.last + 1 + k) .start _ (rest.drop (extent.last - index)))
            (grammar.scanLines limits depth (extent.last + 1) .start _ (rest.drop (extent.last - index))) :=
          ih _ (by omega) hinside.inStep
        rw [scanLines_opening hrunning hrole hroom hextent hdeclared,
          scanLines_opening hrunning' hrole hroom' hmoved hdeclared', hplace, Extent.shift_last,
          Nat.add_right_comm extent.last k 1]
        refine ⟨?_, hlater.inStep⟩
        dsimp only
        rw [hlater.declarations_eq, hinside.declarations_eq, Declaration.shiftAll_cons, Declaration.shift_withChildren]

/-- Blank lines in front of a text move its outline down by their number and change nothing else, under
all ceilings. If the scan of the longer text returns, the scan of the text does; and both do if the last
line and the span for guesses add up to a word. -/
theorem scan_unlines_append (grammar : Grammar) (limits : Limits) (blank : List Text) (t : Text)
    (hblank : ∀ line ∈ blank, '\n' ∉ line ∧ Text.isBlankText line = true) :
    (grammar.scan limits (Text.unlines blank ++ t)).1 =
        Declaration.shiftAll blank.length (grammar.scan limits t).1 ∧
      (grammar.scan limits (Text.unlines blank ++ t)).2.length = (grammar.scan limits t).2.length ∧
      (∀ moved, grammar.scan? limits (Text.unlines blank ++ t) = some moved →
        moved = grammar.scan limits (Text.unlines blank ++ t) ∧
          grammar.scan? limits t = some (grammar.scan limits t)) ∧
      (blank.length + (Text.lines t).length + limits.fallbackSpan ≤ UInt64.size →
        grammar.scan? limits (Text.unlines blank ++ t) =
          some (grammar.scan limits (Text.unlines blank ++ t))) := by
  have hlines := Text.lines_unlines_append (fun line hmem => (hblank line hmem).1) t
  have hempty : ∀ line ∈ blank.map fun line => (Text.dropReturn line.reverse).reverse,
      (Text.trim line).isEmpty = true := by
    intro line hmem
    obtain ⟨whole, hwhole, rfl⟩ := List.mem_map.1 hmem
    exact Text.trim_dropReturn_of_blank (hblank whole hwhole).2
  obtain ⟨hdeclarations, hstep⟩ : Translated blank.length
      (grammar.scanLines limits 0 (0 + blank.length) .start .start (Text.lines t))
      (grammar.scanLines limits 0 0 .start .start (Text.lines t)) :=
    scanLines_translated _ (.start blank.length)
  have hmoved : grammar.scanLines limits 0 0 .start .start (Text.lines (Text.unlines blank ++ t)) =
      grammar.scanLines limits 0 (0 + blank.length) .start .start (Text.lines t) := by
    rw [hlines, scanLines_blank hempty rfl rfl, List.length_map]
  refine ⟨?_, ?_, fun moved hfound => ?_, fun hfits => scan?_of_fits ?_⟩
  · simp only [scan, hmoved]
    exact hdeclarations
  · simp only [scan, hmoved]
    exact hstep.length_warnings_eq
  · obtain ⟨rfl, hwords⟩ := scan?_eq_some_iff.1 hfound
    refine ⟨rfl, scan?_eq_some_iff.2 ⟨rfl, fun line hmem => ?_⟩⟩
    have hguess : line + blank.length ∈
        (grammar.scanLines limits 0 0 .start .start (Text.lines (Text.unlines blank ++ t))).2.guesses := by
      rw [hmoved, hstep.guesses_eq]
      exact List.mem_map_of_mem hmem
    have hword := hwords (line + blank.length) hguess
    omega
  · rw [hlines, List.length_append, List.length_map]
    exact hfits

/-- A module and a function that are never closed, behind three blank lines. -/
theorem scan_unlines_append_open :
    (rust.scan {} " \t\n\n\r\nmod m \x7b\n fn f() \x7b\n".toList).1 =
        Declaration.shiftAll 3 (rust.scan {} "mod m \x7b\n fn f() \x7b\n".toList).1 ∧
      (rust.scan {} " \t\n\n\r\nmod m \x7b\n fn f() \x7b\n".toList).2.length = 2 ∧
      rust.scan? {} "mod m \x7b\n fn f() \x7b\n".toList =
        some (rust.scan {} "mod m \x7b\n fn f() \x7b\n".toList) := by
  have hblank : ∀ line ∈ [" \t".toList, [], ['\r']], '\n' ∉ line ∧ Text.isBlankText line = true := by
    decide
  obtain ⟨hdeclarations, hwarnings, hreturns, hfits⟩ := scan_unlines_append rust {}
    [" \t".toList, [], ['\r']] "mod m \x7b\n fn f() \x7b\n".toList hblank
  refine ⟨hdeclarations, hwarnings.trans ?_, (hreturns _ (hfits (by decide))).2⟩
  decide +kernel

end Grammar

end Outline
