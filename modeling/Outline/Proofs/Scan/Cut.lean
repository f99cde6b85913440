import Outline.Proofs.Scan.Silence
import Outline.Proofs.Text.Lines

namespace Outline.Grammar

variable {grammar : Grammar} {limits : Limits}

section Take

variable {index n : Nat} {extent : Extent}

/-- What a line declares does not depend on the lines behind its extent. -/
theorem declaration?_take {attrs : Text} {heading : Heading} {pending : Pending} {window : List Text}
    (hlast : extent.last - index < n) :
    grammar.declaration? index attrs heading extent pending (window.take n) =
      grammar.declaration? index attrs heading extent pending window := by
  simp only [declaration?, windowOf_take hlast]

theorem interior_take {rest : List Text} (hstart : index ≤ extent.headerEnd)
    (hlast : extent.last - index ≤ n) :
    grammar.interior index extent (rest.take n) = grammar.interior index extent rest := by
  have hle := interiorLast_le grammar extent
  have hcount : min (grammar.interiorLast extent - extent.headerEnd) (n - (extent.headerEnd - index)) =
      grammar.interiorLast extent - extent.headerEnd := by omega
  rw [interior, interior, List.drop_take, List.take_take, hcount]

theorem scanInside_take {depth : Nat} {heading : Heading} {declared : Declaration} {noted : Progress}
    {rest : List Text} (hstart : index ≤ extent.headerEnd) (hlast : extent.last - index ≤ n) :
    grammar.scanInside limits depth index heading extent declared noted (rest.take n) =
      grammar.scanInside limits depth index heading extent declared noted rest := by
  simp only [scanInside, interior_take hstart hlast]

end Take

/-- What stands inside a declaration is the same after fewer declarations, if it is scanned in silence. -/
theorem scanInside_settled {depth index : Nat} {heading : Heading} {extent : Extent} {declared : Declaration}
    {progress progress' : Progress} {rest : List Text} (hleads : progress.Leads progress')
    (hsilent : (grammar.scanInside limits depth index heading extent declared progress rest).2.warnings =
      progress.warnings) :
    (grammar.scanInside limits depth index heading extent declared progress rest).1 =
        (grammar.scanInside limits depth index heading extent declared progress' rest).1 ∧
      (grammar.scanInside limits depth index heading extent declared progress' rest).2.warnings =
        progress'.warnings := by
  have hraise := Limits.RaisedTo.refl limits
  have hsettled := scanInside_settled_of_scan (k := 0) hraise (Nat.le_refl depth) hleads
    (fun hleads hsilent => scanLines_settled hraise 0 _ (Nat.le_refl _) hleads hsilent)
    (by rwa [Declaration.shift_zero])
  rwa [Declaration.shift_zero, Declaration.shiftAll_zero] at hsettled

/-- Declarations of a scan end behind the line before its window. -/
theorem lt_endLine_of_mem_scanLines {depth index : Nat} {carry : Carry} {progress : Progress}
    {window : List Text} {a : Declaration}
    (hmem : a ∈ (grammar.scanLines limits depth index carry progress window).1) :
    index < a.endLine ∧ a.endLine ≤ index + window.length := by
  have hordered := scanLines_ordered grammar limits window depth index carry progress
  obtain ⟨hfirst, hrange, hlast⟩ := hordered.bounds a (Declaration.Ordered.mem_walkAll_of_mem hmem)
  exact ⟨by omega, hlast⟩

/-- When lines are cut off behind a declaration that opens a silent scan, the scan opens with the same
declaration and goes on with what is left. -/
theorem scanLines_take_opening {depth index m : Nat} {carry skipped : Carry} {progress progress' : Progress}
    {line : Text} {rest : List Text} {heading : Heading} {attrs : Text} {pending : Pending} {extent : Extent}
    {declared : Declaration} (hleads : progress.Leads progress')
    (hrole : grammar.roleOf carry line rest = .heads heading attrs pending skipped)
    (hroom : progress.emitted < limits.maxDeclarations)
    (hextent : grammar.extent limits heading.rule.body index (line :: rest) = extent)
    (hfound : extent.isDegraded = false)
    (hdeclared : grammar.declaration? index attrs heading extent pending (line :: rest) = some declared)
    (hquiet : (grammar.scanInside limits depth index heading extent declared progress rest).2.warnings =
      progress.warnings) (hlast : extent.last ≤ index + m) (hcount : m ≤ rest.length) :
    ∃ behind,
      (grammar.scanInside limits depth index heading extent declared progress rest).2.Leads behind ∧
      (grammar.scanLines limits depth index carry progress' (line :: rest.take m)).1 =
        declared.withChildren (grammar.scanInside limits depth index heading extent declared progress rest).1 ::
          (grammar.scanLines limits depth (extent.last + 1) .start behind
            ((rest.drop (extent.last - index)).take (m - (extent.last - index)))).1 := by
  obtain ⟨hstart, _, _⟩ := hextent ▸ grammar.extent_bounds limits heading.rule.body index line rest
  have hrole' : grammar.roleOf carry line (rest.take m) = .heads heading attrs pending skipped := by
    rw [roleOf_take (by rw [hrole]; exact Nat.zero_le _), hrole]
  have hextent' : grammar.extent limits heading.rule.body index (line :: rest.take m) = extent := by
    have hshort : m + 1 ≤ (line :: rest).length := Nat.succ_le_succ hcount
    have hsettled := grammar.extent_settled (.refl limits) (Nat.succ_pos m) hshort
      (by rw [hextent]; exact hfound) (by rw [hextent]; omega)
    rw [← hextent, ← hsettled, List.take_succ_cons]
  have hdeclared' : grammar.declaration? index attrs heading extent pending (line :: rest.take m) =
      some declared := by
    rw [← List.take_succ_cons, declaration?_take (by omega), hdeclared]
  obtain ⟨hchildren, hinside⟩ := scanInside_settled hleads hquiet
  have hadvance := scanInside_advances grammar limits depth index heading extent declared progress rest
  have hadvance' := scanInside_advances grammar limits depth index heading extent declared progress' rest
  rw [hchildren] at hadvance
  refine ⟨_, hleads.advance hadvance hadvance' hquiet hinside, ?_⟩
  rw [scanLines_opening hleads.running_behind hrole' (Nat.lt_of_le_of_lt hleads.emitted_le hroom) hextent'
    hdeclared', Progress.noteExtent_of_found _ _ _ hfound, scanInside_take hstart (by omega), List.drop_take,
    hchildren]

/-- A silent scan of a window can be cut behind any of its declarations. -/
theorem scanLines_cut (window : List Text) {depth index n : Nat} {carry : Carry}
    {progress progress' : Progress} (hleads : progress.Leads progress')
    (hsilent : (grammar.scanLines limits depth index carry progress window).2.warnings = progress.warnings)
    {a : Declaration} (hmem : a ∈ (grammar.scanLines limits depth index carry progress window).1)
    (hends : a.endLine = index + n) :
    ∃ reached : Progress, reached.Leads .start ∧
      (grammar.scanLines limits depth (index + n) .start reached (window.drop n)).2.warnings =
        reached.warnings ∧
      (grammar.scanLines limits depth index carry progress window).1 =
        (grammar.scanLines limits depth index carry progress' (window.take n)).1 ++
          (grammar.scanLines limits depth (index + n) .start reached (window.drop n)).1 := by
  induction window using window_induction generalizing index n carry progress progress' with
  | nil =>
    rw [scanLines_nil] at hmem
    simp at hmem
  | cons line rest ih =>
    have hrunning := hleads.running
    have hrunning' := hleads.running_behind
    cases hrole : grammar.roleOf carry line rest with
    | passed further carried =>
      rw [scanLines_passed hrunning hrole] at hsilent hmem ⊢
      -- The declaration ends behind the lines that the first one takes.
      have hbehind := (lt_endLine_of_mem_scanLines hmem).1
      obtain ⟨m, rfl⟩ : ∃ m, n = m + further + 1 := ⟨n - further - 1, by omega⟩
      have htake : grammar.roleOf carry line (rest.take (m + further)) = .passed further carried := by
        rw [roleOf_take (by rw [hrole]; exact Nat.le_add_left _ _), hrole]
      have hplace : index + (m + further + 1) = index + 1 + further + m := by omega
      have hafter : rest.drop (m + further) = (rest.drop further).drop m := by
        rw [List.drop_drop, Nat.add_comm]
      rw [List.take_succ_cons, scanLines_passed hrunning' htake, List.drop_take, Nat.add_sub_cancel,
        List.drop_succ_cons, hafter, hplace]
      exact ih _ (by rw [List.length_drop]; omega) hleads hsilent hmem (by omega)
    | heads heading attrs pending skipped =>
      obtain ⟨extent, hextent⟩ : ∃ extent, grammar.extent limits heading.rule.body index (line :: rest) =
        extent := ⟨_, rfl⟩
      obtain ⟨hroom, hfound, hcases⟩ := scanLines_silent_cases hrunning hrole hextent hsilent
      have hroom' := Nat.lt_of_le_of_lt hleads.emitted_le hroom
      have hbehind := lt_endLine_of_mem_scanLines hmem
      rw [List.length_cons] at hbehind
      obtain ⟨m, rfl⟩ : ∃ m, n = m + 1 := ⟨n - 1, by omega⟩
      have htake : grammar.roleOf carry line (rest.take m) = .heads heading attrs pending skipped := by
        rw [roleOf_take (by rw [hrole]; exact Nat.zero_le _), hrole]
      rw [List.take_succ_cons, List.drop_succ_cons]
      rcases hcases with
        ⟨hblank, hscan⟩ | ⟨declared, inner, later, hdeclared, hinner, hlater, hquiet, hquiet', hscan⟩
      · rw [hscan] at hsilent hmem ⊢
        rw [scanLines_rejected hrunning' htake hroom' rfl hblank]
        have hplace : index + (m + 1) = index + 1 + m := by omega
        rw [hplace]
        exact ih rest (Nat.le_refl _) (hleads.noteExtent _ _ _) hsilent hmem (by omega)
      · obtain ⟨hstart, hheader, _⟩ := hextent ▸ grammar.extent_bounds limits heading.rule.body index line rest
        obtain ⟨_, _, hendLine, _⟩ := of_declaration?_eq_some hdeclared (by omega)
        rw [hscan, List.mem_cons, ← hlater] at hmem
        rw [hscan]
        have hlast : extent.last ≤ index + m := by
          rcases hmem with rfl | hmem
          · change declared.endLine = _ at hends
            omega
          · have := (lt_endLine_of_mem_scanLines hmem).1
            omega
        subst hinner hlater
        obtain ⟨behind, hleads', hopening⟩ := scanLines_take_opening hleads hrole hroom hextent hfound hdeclared
          hquiet hlast (by omega)
        rw [hopening]
        rcases hmem with rfl | hmem
        · change declared.endLine = _ at hends
          have hcut : m = extent.last - index := by omega
          have hplace : index + (m + 1) = extent.last + 1 := by omega
          refine ⟨_, hleads'.start, ?_, ?_⟩
          · rwa [hplace, hcut]
          · rw [hplace, hcut, Nat.sub_self, List.take_zero, scanLines_nil, List.singleton_append]
        · have hplace : index + (m + 1) = extent.last + 1 + (m - (extent.last - index)) := by omega
          have hafter : rest.drop m = (rest.drop (extent.last - index)).drop (m - (extent.last - index)) := by
            rw [List.drop_drop]
            congr 1
            omega
          obtain ⟨reached, hreached, hquiet', hparts⟩ := ih (rest.drop (extent.last - index))
            (by rw [List.length_drop]; omega) hleads' hquiet' hmem (hends.trans hplace)
          refine ⟨reached, hreached, ?_, ?_⟩
          · rwa [hplace, hafter]
          · rw [hplace, hafter, hparts, List.cons_append]

/-- A text with a silent outline can be cut behind any of its declarations: the outline is that of the first part,
followed by that of the second part moved to its place. The second part is silent again. Nothing is carried over the
end of a declaration, and nothing before it looks behind it. -/
theorem scan_cut (grammar : Grammar) (limits : Limits) (t : Text) (hsilent : (grammar.scan limits t).2 = [])
    {a : Declaration} (hmem : a ∈ (grammar.scan limits t).1) :
    Text.headLines a.endLine t ++ Text.tailLines a.endLine t = t ∧
      (grammar.scan limits t).1 = (grammar.scan limits (Text.headLines a.endLine t)).1 ++
        Declaration.shiftAll a.endLine (grammar.scan limits (Text.tailLines a.endLine t)).1 ∧
      (grammar.scan limits (Text.tailLines a.endLine t)).2 = [] := by
  have hleads : Progress.start.Leads Progress.start := ⟨Nat.le_refl _, rfl, rfl, rfl⟩
  obtain ⟨reached, hreached, hquiet, hparts⟩ :=
    scanLines_cut (Text.lines t) hleads hsilent hmem (Nat.zero_add a.endLine).symm
  obtain ⟨hmoved, hsilent'⟩ := scanLines_settled (.refl limits) a.endLine
    ((Text.lines t).drop a.endLine) (Nat.le_refl 0) hreached hquiet
  simp only [scan, Text.lines_headLines, Text.lines_tailLines]
  exact ⟨Text.headLines_append_tailLines _ _, by rw [hparts, hmoved], hsilent'⟩

/-- A module is cut off from a function that has a comment and an attribute of its own. -/
theorem scan_cut_module :
    ∃ a ∈ (rust.scan {} "mod m \x7b\n fn f()\n \x7b\x7d\n\x7d\n/// D\n#[cold]\nfn g() \x7b\x7d\n".toList).1,
      a.endLine = 4 ∧
      (rust.scan {} "mod m \x7b\n fn f()\n \x7b\x7d\n\x7d\n/// D\n#[cold]\nfn g() \x7b\x7d\n".toList).2 = [] ∧
      (rust.scan {} "mod m \x7b\n fn f()\n \x7b\x7d\n\x7d\n/// D\n#[cold]\nfn g() \x7b\x7d\n".toList).1 =
        (rust.scan {} "mod m \x7b\n fn f()\n \x7b\x7d\n\x7d\n".toList).1 ++
          Declaration.shiftAll 4 (rust.scan {} "/// D\n#[cold]\nfn g() \x7b\x7d\n".toList).1 := by
  have hsilent : (rust.scan {}
      "mod m \x7b\n fn f()\n \x7b\x7d\n\x7d\n/// D\n#[cold]\nfn g() \x7b\x7d\n".toList).2 = [] := by
    decide +kernel
  have hfirst : (rust.scan {}
      "mod m \x7b\n fn f()\n \x7b\x7d\n\x7d\n/// D\n#[cold]\nfn g() \x7b\x7d\n".toList).1.head?.map
        Declaration.endLine = some 4 := by
    decide +kernel
  obtain ⟨a, hhead, hend⟩ := Option.map_eq_some_iff.1 hfirst
  have hmem := List.mem_of_head? hhead
  have hcut := (scan_cut rust {} _ hsilent hmem).2.1
  rw [hend] at hcut
  exact ⟨a, hmem, hend, hsilent, hcut⟩

end Outline.Grammar
