import Outline.Proofs.Scan.Interior

namespace Outline.Grammar

/-- Blank lines, and a class with a statement whose bracket is never closed. -/
def openClass (blank : Nat) : Text :=
  List.replicate blank '\n' ++ "class C:\n x = (\n".toList

/-- Limits that a text of `count` lines does not meet. -/
def wideLimits (count span : Nat) : Limits :=
  ⟨⟨2000, 1000000, span, 8⟩, count + 1, count + 1⟩

theorem lines_openClass (blank : Nat) :
    Text.lines (openClass blank) = List.replicate blank [] ++ ["class C:".toList, " x = (".toList] := by
  rw [openClass, Text.lines_replicate_append]
  rfl

/-- The last line of the text is a window of its own. -/
theorem windowOf_openClass (blank : Nat) :
    windowOf (Text.lines (openClass blank)) (blank + 1) (blank + 1) = [" x = (".toList] := by
  have hcount : blank + 1 + 1 - (blank + 1) = 1 := by omega
  rw [lines_openClass, windowOf, hcount, ← List.drop_drop, List.drop_left' List.length_replicate]
  rfl

/-- The end of the statement is guessed wherever the statement stands. -/
theorem isDegraded_openStatement (count span index : Nat) :
    (python.extent (wideLimits count span) .statement index [" x = (".toList]).isDegraded = true := by
  have hmoved := python.extent_shift (wideLimits count span) .statement 0 index
    (List.cons_ne_nil " x = (".toList [])
  rw [Nat.zero_add] at hmoved
  rw [hmoved, Extent.isDegraded_shift]
  rfl

/-- A window that opens with a heading whose extent is guessed breaks a run down, if its first line and the
span add up to no word. -/
theorem scanLines?_eq_none {grammar : Grammar} {limits : Limits} {depth index : Nat} {carry skipped : Carry}
    {progress : Progress} {line : Text} {rest : List Text} {heading : Heading} {attrs : Text}
    {pending : Pending} (hroom : limits.LeaveRoom depth progress (line :: rest))
    (hrole : grammar.roleOf carry line rest = .heads heading attrs pending skipped)
    (hname : ¬ (Text.trim heading.name).isEmpty = true)
    (hguess : (grammar.extent limits heading.rule.body index (line :: rest)).isDegraded = true)
    (hlong : UInt64.size ≤ index + limits.fallbackSpan) :
    grammar.scanLines? limits depth index carry progress (line :: rest) = none := by
  obtain ⟨extent, hextent⟩ : ∃ extent, grammar.extent limits heading.rule.body index (line :: rest) =
    extent := ⟨_, rfl⟩
  obtain ⟨declared, hdeclared⟩ := exists_declaration hname
  rw [hextent] at hguess
  have hnoted : index ∈ (progress.noteExtent index heading extent).guesses := by
    simp [Progress.guesses_noteExtent, hguess]
  -- What is guessed stays guessed for the rest of the run.
  have hinside := (scanInside_advances grammar limits depth index heading extent declared
    (progress.noteExtent index heading extent) rest).guesses_grow
  have hlater := (scanLines_advances grammar limits (rest.drop (extent.last - index)) depth
    (extent.last + 1) .start (grammar.scanInside limits depth index heading extent declared
      (progress.noteExtent index heading extent) rest).2).guesses_grow
  refine Option.eq_none_iff_forall_ne_some.2 fun found hfound => ?_
  obtain ⟨rfl, hfits⟩ := scanLines?_eq_some_iff.1 hfound
  rw [scanLines_opening hroom.running hrole hroom.emitted_lt hextent hdeclared] at hfits
  have hsum := hfits index (hlater.subset (hinside.subset hnoted))
  omega

/-- The last line of the text breaks a scan down where it stands, and does not as a text of its own. -/
theorem not_windowsStandAlone_openClass {blank span : Nat} (hspan : span < UInt64.size)
    (hlong : UInt64.size ≤ blank + 1 + span) :
    ¬ python.WindowsStandAlone (wideLimits (blank + 2) span) (openClass blank) := by
  intro hlaw
  obtain ⟨heading, attrs, pending, skipped, hrole, hbody, hname⟩ :
      ∃ heading attrs pending skipped,
        python.roleOf .start " x = (".toList [] = .heads heading attrs pending skipped ∧
        heading.rule.body = .statement ∧ ¬ (Text.trim heading.name).isEmpty = true :=
    ⟨_, _, _, _, rfl, rfl, by decide⟩
  have hroom : (wideLimits (blank + 2) span).LeaveRoom 1 Progress.start.emit [" x = (".toList] :=
    ⟨rfl, by simp [wideLimits], by simp [wideLimits, Progress.start, Progress.emit]⟩
  have hguess := isDegraded_openStatement (blank + 2) span (blank + 1)
  rw [← hbody] at hguess
  have hplaced := scanLines?_eq_none hroom hrole hname hguess hlong
  have hlines : Text.lines (Text.lineRange (blank + 1) (blank + 1) (openClass blank)) = [" x = (".toList] := by
    rw [Text.lines_lineRange, windowOf_openClass]
  have hfits : (Text.lines (Text.lineRange (blank + 1) (blank + 1) (openClass blank))).length +
      (wideLimits (blank + 2) span).fallbackSpan ≤ UInt64.size := by
    rw [hlines, List.length_singleton]
    change 1 + span ≤ UInt64.size
    omega
  have hsame := hlaw 1 (blank + 1) (blank + 1) Progress.start.emit (by rwa [windowOf_openClass]) (by
    simp [Progress.start, Progress.emit])
  rw [windowOf_openClass, hplaced, scan?_of_fits hfits] at hsame
  simp at hsame

/-- Where a scan returns, the interiors in its outline stand alone, in every language and under all limits with room
for the lines. All windows of all texts with `count` lines stand alone exactly if no sum of a line and the span
leaves the words. The span is a word, as in the limits of a program. -/
theorem standAlone_iff (count span : Nat) (hspan : span < UInt64.size) :
    (∀ (language : Language) (limits : Limits) (t : Text) (found : List Declaration × List String),
      (Text.lines t).length = count → limits.fallbackSpan = span → count < limits.maxDepth →
      count < limits.maxDeclarations → language.grammar.scan? limits t = some found →
        language.grammar.InteriorsStandAlone limits t found.1) ∧
    ((∀ (language : Language) (limits : Limits) (t : Text), (Text.lines t).length = count →
      limits.fallbackSpan = span → count < limits.maxDepth → count < limits.maxDeclarations →
        language.grammar.WindowsStandAlone limits t) ↔ count + span ≤ UInt64.size) := by
  refine ⟨?_, ?_, ?_⟩
  · intro language limits t found hlength _ hdepth hroom hfound
    subst hlength
    exact interiorsStandAlone hdepth hroom hfound
  · intro hlaw
    refine Nat.not_lt.1 fun hlong => ?_
    have htwo : 2 ≤ count := by omega
    obtain ⟨blank, rfl⟩ := Nat.exists_eq_add_of_le' htwo
    have hsum : UInt64.size ≤ blank + 1 + span := by omega
    refine not_windowsStandAlone_openClass hspan hsum ?_
    refine hlaw .python _ _ ?_ rfl (Nat.lt_succ_self _) (Nat.lt_succ_self _)
    rw [lines_openClass, List.length_append, List.length_replicate]
    rfl
  · intro hfits language limits t hlength hlimit _ _
    subst hlength hlimit
    exact windowsStandAlone_of_fits language.grammar hfits

/-- All windows of three lines stand alone for the default span and need not for the largest. -/
theorem standAlone_iff_three :
    python.WindowsStandAlone {} "class C:\n def f(self):\n  return 1\n".toList ∧
      ¬ ∀ (language : Language) (limits : Limits) (t : Text), (Text.lines t).length = 3 →
        limits.fallbackSpan = 18446744073709551615 → 3 < limits.maxDepth → 3 < limits.maxDeclarations →
          language.grammar.WindowsStandAlone limits t := by
  refine ⟨?_, fun hlaw => ?_⟩
  · exact (standAlone_iff 3 50 (by decide)).2.2 (by decide) .python {} _ (by decide) rfl (by decide) (by decide)
  · have hfits := (standAlone_iff 3 18446744073709551615 (by decide)).2.1 hlaw
    exact absurd hfits (by decide)

/-- The lines inside this class have an outline as a text of their own, and break the scan of the class
down. -/
theorem not_standAlone_three :
    ¬ python.WindowsStandAlone ⟨⟨2000, 1000000, 18446744073709551615, 8⟩, 4, 4⟩
      "class C:\n x = (\n y\n".toList := by
  intro hlaw
  have hsame := hlaw 1 1 2 Progress.start.emit ⟨rfl, by decide, by decide⟩ (by decide)
  have hreturns := congrArg Option.isSome hsame
  rw [Option.isSome_map, Option.isSome_map] at hreturns
  have hplaced : (python.scanLines? ⟨⟨2000, 1000000, 18446744073709551615, 8⟩, 4, 4⟩ 1 1 .start
      Progress.start.emit (windowOf (Text.lines "class C:\n x = (\n y\n".toList) 1 2)).isSome = false := by
    decide +kernel
  have halone : (python.scan? ⟨⟨2000, 1000000, 18446744073709551615, 8⟩, 4, 4⟩
      (Text.lineRange 1 2 "class C:\n x = (\n y\n".toList)).isSome = true := by
    decide +kernel
  rw [hplaced, halone] at hreturns
  exact Bool.noConfusion hreturns

end Outline.Grammar
