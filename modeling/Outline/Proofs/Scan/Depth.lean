import Outline.Proofs.Scan.Budget

namespace Outline.Grammar

variable {grammar : Grammar} {limits : Limits}

/-- `cut` has the first levels of what `whole` has, and has counted no more. -/
structure PrunedTo (levels : Nat) (whole cut : List Declaration × Progress) : Prop where
  found_eq : cut.1 = Declaration.pruneAll levels whole.1
  running : cut.2.exhausted = false
  emitted_le : cut.2.emitted ≤ whole.2.emitted

section Simulation

variable {levels deep ample maxDepth budget depth index : Nat} {heading : Heading} {extent : Extent}
  {declared : Declaration} {noted noted' : Progress} {rest : List Text}

theorem exhausted_noteDepth (progress : Progress) (limits : Limits) (parent : Declaration) :
    (progress.noteDepth limits parent).exhausted = progress.exhausted := by
  unfold Progress.noteDepth
  split <;> rfl

/-- What stands inside a declaration on the last level is left out. -/
theorem scanInside_prunedTo_zero (hlast : maxDepth ≤ depth + 1) (hrunning : noted'.exhausted = false)
    (hcount : noted'.emitted ≤ noted.emitted) :
    PrunedTo 0
      (grammar.scanInside (limits.recapped deep ample) depth index heading extent declared noted rest)
      (grammar.scanInside (limits.recapped maxDepth budget) depth index heading extent declared noted' rest) := by
  have hinner := (grammar.scanInside_advances (limits.recapped deep ample) depth index heading extent declared noted
    rest).emitted_eq
  rcases scanInside_cases grammar (limits.recapped maxDepth budget) depth index heading extent declared noted' rest
    with ⟨_, hinside⟩ | ⟨_, _, hinside⟩ | ⟨_, hdeep, _⟩
  · rw [hinside]
    refine ⟨(Declaration.pruneAll_zero _).symm, hrunning, ?_⟩
    change noted'.emitted + 1 ≤ _
    omega
  · have hnoted : _ = noted'.emitted + 1 :=
      (noted'.emit.advances_noteDepth (limits.recapped maxDepth budget) declared).emitted_eq
    rw [hinside]
    refine ⟨(Declaration.pruneAll_zero _).symm, (exhausted_noteDepth ..).trans hrunning, ?_⟩
    dsimp only
    omega
  · exact absurd hdeep (Nat.not_lt.2 hlast)

/-- What stands inside a declaration above the last level is pruned as the scan of the interior is. -/
theorem scanInside_prunedTo_succ (hdeep : depth + 1 < deep) (hlevels : depth + 1 < maxDepth)
    (hrunning : noted'.exhausted = false) (hcount : noted'.emitted ≤ noted.emitted)
    (hscan : (grammar.scanLines (limits.recapped deep ample) (depth + 1) (extent.headerEnd + 1) .start noted.emit
          (grammar.interior index extent rest)) =
        grammar.scanInside (limits.recapped deep ample) depth index heading extent declared noted rest →
      PrunedTo levels
        (grammar.scanLines (limits.recapped deep ample) (depth + 1) (extent.headerEnd + 1) .start noted.emit
          (grammar.interior index extent rest))
        (grammar.scanLines (limits.recapped maxDepth budget) (depth + 1) (extent.headerEnd + 1) .start noted'.emit
          (grammar.interior index extent rest))) :
    PrunedTo levels
      (grammar.scanInside (limits.recapped deep ample) depth index heading extent declared noted rest)
      (grammar.scanInside (limits.recapped maxDepth budget) depth index heading extent declared noted' rest) := by
  rcases scanInside_cases grammar (limits.recapped deep ample) depth index heading extent declared noted rest
    with ⟨hclosed, hinside⟩ | ⟨_, hshallow, _⟩ | ⟨hopen, _, hinside⟩
  · rw [hinside, scanInside_closed hclosed]
    exact ⟨(Declaration.pruneAll_nil _).symm, hrunning, Nat.succ_le_succ hcount⟩
  · exact absurd hdeep (Nat.not_lt.2 hshallow)
  · have hlevels' : depth + 1 < (limits.recapped maxDepth budget).maxDepth := hlevels
    have hpruned := hscan hinside.symm
    rw [hinside, scanInside_open hopen hlevels']
    exact hpruned

/-- A scan with a limit of nesting keeps step with the same scan without one. The second has counted more
declarations at every step, so that the first does not meet the limit of declarations if the second does not. -/
theorem scanLines_prunedTo (hnames : grammar.NamesVisible) (limits : Limits) {deep ample maxDepth budget : Nat}
    (window : List Text) {levels depth : Nat} (index : Nat) (carry : Carry) {progress progress' : Progress}
    (hdeep : depth + window.length < deep) (hlevels : depth + levels + 1 = maxDepth)
    (hrunning : progress'.exhausted = false) (hcount : progress'.emitted ≤ progress.emitted)
    (hwhole : (grammar.scanLines (limits.recapped deep ample) depth index carry progress
      window).2.exhausted = false)
    (hbudget : (grammar.scanLines (limits.recapped deep ample) depth index carry progress
      window).2.emitted ≤ budget) :
    PrunedTo (levels + 1)
      (grammar.scanLines (limits.recapped deep ample) depth index carry progress window)
      (grammar.scanLines (limits.recapped maxDepth budget) depth index carry progress' window) := by
  induction window using window_induction generalizing levels depth index carry progress progress' with
  | nil =>
    rw [scanLines_nil, scanLines_nil]
    exact ⟨(Declaration.pruneAll_nil _).symm, hrunning, hcount⟩
  | cons line rest ih =>
    rw [List.length_cons] at hdeep
    have hbegun := (scanLines_heeds grammar (limits.recapped deep ample) (line :: rest) depth index carry
      progress).running hwhole
    cases hrole : grammar.roleOf carry line rest with
    | passed further carried =>
      rw [scanLines_passed hbegun hrole] at hwhole hbudget ⊢
      rw [scanLines_passed hrunning hrole]
      have hlength : (rest.drop further).length = rest.length - further := List.length_drop
      exact ih _ (by omega) _ _ (by omega) hlevels hrunning hcount hwhole hbudget
    | heads heading attrs pending skipped =>
      have hroom := room_of_running hbegun hrole hwhole
      obtain ⟨extent, hextent⟩ : ∃ extent, grammar.extent limits heading.rule.body index (line :: rest) =
        extent := ⟨_, rfl⟩
      obtain ⟨declared, hdeclared⟩ := hnames.exists_declaration hrole index extent
      rw [scanLines_opening hbegun hrole hroom
        ((grammar.extent_recapped limits deep ample _ _ _).trans hextent) hdeclared] at hwhole hbudget ⊢
      have hnoted := progress.emitted_noteExtent index heading extent
      have hnoted' := progress'.emitted_noteExtent index heading extent
      have hinner := (grammar.scanInside_advances (limits.recapped deep ample) depth index heading extent declared
        (progress.noteExtent index heading extent) rest).emitted_eq
      have hlater := scanLines_heeds grammar (limits.recapped deep ample) (rest.drop (extent.last - index)) depth
        (extent.last + 1) .start (grammar.scanInside (limits.recapped deep ample) depth index heading extent declared
          (progress.noteExtent index heading extent) rest).2
      have hmore := hlater.emitted_le
      dsimp only at hwhole hbudget ⊢
      have hroom' : progress'.emitted < budget := by omega
      rw [scanLines_opening hrunning hrole (show _ < (limits.recapped maxDepth budget).maxDeclarations from hroom')
        ((grammar.extent_recapped limits maxDepth budget _ _ _).trans hextent) hdeclared]
      dsimp only
      have hinside : PrunedTo levels
          (grammar.scanInside (limits.recapped deep ample) depth index heading extent declared
            (progress.noteExtent index heading extent) rest)
          (grammar.scanInside (limits.recapped maxDepth budget) depth index heading extent declared
            (progress'.noteExtent index heading extent) rest) := by
        have hrunning' := (progress'.exhausted_noteExtent index heading extent).trans hrunning
        have hcount' : (progress'.noteExtent index heading extent).emitted ≤
            (progress.noteExtent index heading extent).emitted := by omega
        cases levels with
        | zero => exact scanInside_prunedTo_zero (by omega) hrunning' hcount'
        | succ levels =>
          refine scanInside_prunedTo_succ (by omega) (by omega) hrunning' hcount' fun hscan => ?_
          have hlength := (length_interior_le grammar index extent rest).2
          refine ih _ hlength _ _ (by omega) (by omega) hrunning' (Nat.succ_le_succ hcount') ?_ ?_
          · rw [hscan]
            exact hlater.running hwhole
          · rw [hscan]
            omega
      have hbehind := ih (rest.drop (extent.last - index)) (by rw [List.length_drop]; omega) (extent.last + 1) .start
        (by rw [List.length_drop]; omega) hlevels hinside.running hinside.emitted_le hwhole hbudget
      refine ⟨?_, hbehind.running, hbehind.emitted_le⟩
      rw [Declaration.pruneAll_cons, hinside.found_eq, hbehind.found_eq]
      rfl

end Simulation

section Whole

variable {limits : Limits} {t : Text} {levels deep ample budget : Nat}

/-- A limit of nesting prunes the outline of a text. -/
theorem scanLines_lines_prunedTo (language : Language) (limits : Limits) (hlevels : 1 ≤ levels)
    (hdeep : (Text.lines t).length < deep) (hample : (Text.lines t).length < ample)
    (hbudget : Declaration.totalAll (language.grammar.scan (limits.recapped deep ample) t).1 ≤ budget) :
    PrunedTo levels
      (language.grammar.scanLines (limits.recapped deep ample) 0 0 .start .start (Text.lines t))
      (language.grammar.scanLines (limits.recapped levels budget) 0 0 .start .start (Text.lines t)) := by
  obtain ⟨levels, rfl⟩ : ∃ fewer, levels = fewer + 1 := ⟨levels - 1, by omega⟩
  have hrunning := exhausted_scanLines_lines language.grammar (limits.recapped deep ample) hample
  have hcount := (emitted_scanLines_lines language.grammar (limits.recapped deep ample) t).1
  exact scanLines_prunedTo (namesVisible language) limits (Text.lines t) 0 .start (by omega) (by omega) rfl
    (Nat.le_refl _) hrunning (hcount ▸ hbudget)

/-- A scan nests as deep as its limit says at most, whether it meets the limit of declarations or not. -/
theorem depthAll_scan_le (language : Language) (limits : Limits) (t : Text) (hdepth : 1 ≤ limits.maxDepth) :
    Declaration.depthAll (language.grammar.scan limits t).1 ≤ limits.maxDepth := by
  have hroom : (Text.lines t).length < (Text.lines t).length + 1 := Nat.lt_succ_self _
  have htotal := (emitted_scanLines_lines language.grammar
    (limits.recapped ((Text.lines t).length + 1) ((Text.lines t).length + 1)) t).2
  -- without the limit of declarations the levels are bounded, and the limit only takes nodes away
  have hpruned := scanLines_lines_prunedTo language limits hdepth hroom hroom (Nat.le_succ_of_le htotal)
  have hcut := scanLines_cutAt (namesVisible language) limits limits.maxDepth limits.maxDeclarations
    (Text.lines t) 0 0 .start .start (Nat.zero_le _) hpruned.running
  rw [Declaration.depthAll_le_iff 1]
  intro node hmem
  have hnode := hcut.mem_leveledAll hmem
  rw [hpruned.found_eq, Declaration.leveledAll_pruneAll, List.mem_filter] at hnode
  exact of_decide_eq_true hnode.2

/-- A limit of nesting prunes the outline to its first levels, whatever the language and the text, if the limit of
declarations leaves room for the whole of it. The children that are left out change nothing before, around or behind
their parent. No outline nests deeper than the limit. -/
theorem scan_pruned (language : Language) (limits : Limits) (t : Text) {levels deep ample budget : Nat}
    (hlevels : 1 ≤ levels) (hdeep : (Text.lines t).length < deep) (hample : (Text.lines t).length < ample)
    (hbudget : Declaration.totalAll (language.grammar.scan
      { limits with maxDepth := deep, maxDeclarations := ample } t).1 ≤ budget) :
    let whole := (language.grammar.scan { limits with maxDepth := deep, maxDeclarations := ample } t).1
    let cut := (language.grammar.scan { limits with maxDepth := levels, maxDeclarations := budget } t).1
    (language.grammar.scan { limits with maxDepth := deep, maxDeclarations := budget } t).1 = whole ∧
      cut = Declaration.pruneAll levels whole ∧
      Declaration.leveledAll 1 cut = (Declaration.leveledAll 1 whole).filter (fun node => node.1 ≤ levels) ∧
      ∀ others : Limits, 1 ≤ others.maxDepth →
        Declaration.depthAll (language.grammar.scan others t).1 ≤ others.maxDepth := by
  have hrunning := exhausted_scanLines_lines language.grammar (limits.recapped deep ample) hample
  have hcount := (emitted_scanLines_lines language.grammar (limits.recapped deep ample) t).1
  have hcut := scanLines_cutAt (namesVisible language) limits deep budget (Text.lines t) 0 0 .start
    .start (Nat.zero_le _) hrunning
  have hpruned := scanLines_lines_prunedTo language limits hlevels hdeep hample hbudget
  refine ⟨?_, hpruned.found_eq, ?_, fun others => depthAll_scan_le language others t⟩
  · have hsame := congrArg Prod.fst (hcut.eq_of_fits (hcount ▸ hbudget))
    exact hsame
  · have hwalk := Declaration.leveledAll_pruneAll 1 levels
      (language.grammar.scanLines (limits.recapped deep ample) 0 0 .start .start (Text.lines t)).1
    rw [← hpruned.found_eq] at hwalk
    refine hwalk.trans (List.filter_congr fun node _ => ?_)
    simp only [decide_eq_decide]
    omega

end Whole

/-- One level is left of a class with a method and a class inside, and the function behind it stays. -/
theorem scan_pruned_nested :
    (Text.lines "class A:\n def f(self): pass\n class B:\n  x = 1\ndef g(): pass\n".toList).length < 6 ∧
      (Declaration.leveledAll 1 (python.scan { maxDepth := 6, maxDeclarations := 6 }
        "class A:\n def f(self): pass\n class B:\n  x = 1\ndef g(): pass\n".toList).1).map Prod.fst =
          [1, 2, 2, 3, 1] ∧
      (python.scan { maxDepth := 1, maxDeclarations := 5 }
          "class A:\n def f(self): pass\n class B:\n  x = 1\ndef g(): pass\n".toList).1 =
        Declaration.pruneAll 1 (python.scan { maxDepth := 6, maxDeclarations := 6 }
          "class A:\n def f(self): pass\n class B:\n  x = 1\ndef g(): pass\n".toList).1 ∧
      Declaration.depthAll (python.scan { maxDepth := 2, maxDeclarations := 3 }
        "class A:\n def f(self): pass\n class B:\n  x = 1\ndef g(): pass\n".toList).1 ≤ 2 := by
  have htotal : Declaration.totalAll (python.scan { maxDepth := 6, maxDeclarations := 6 }
      "class A:\n def f(self): pass\n class B:\n  x = 1\ndef g(): pass\n".toList).1 ≤ 5 := by decide +kernel
  obtain ⟨_, hcut, _, hdepth⟩ := scan_pruned .python {} _ (Nat.le_refl 1) (by decide) (by decide) htotal
  exact ⟨by decide, by decide +kernel, hcut, hdepth { maxDepth := 2, maxDeclarations := 3 } (by decide)⟩

end Outline.Grammar
