import Outline.Grammar.Rust
import Outline.Proofs.Declaration.Shift
import Outline.Proofs.Extent.Settled
import Outline.Proofs.Scan.Accounting
import Outline.Proofs.Scan.Geometry

namespace Outline

namespace Progress

/-- A run that is silent from `ahead` meets no ceiling from `behind`: both runs go on, and the second has
counted no more than the first. -/
structure Leads (ahead behind : Progress) : Prop where
  emitted_le : behind.emitted ≤ ahead.emitted
  running : ahead.exhausted = false
  running_behind : behind.exhausted = false
  shallow : ahead.depthWarned = false

theorem Leads.start {ahead behind : Progress} (hleads : ahead.Leads behind) : ahead.Leads .start :=
  ⟨Nat.zero_le _, hleads.running, rfl, hleads.shallow⟩

theorem Leads.noteExtent {ahead behind : Progress} (hleads : ahead.Leads behind) (index : Nat)
    (heading : Heading) (extent : Extent) : ahead.Leads (behind.noteExtent index heading extent) :=
  ⟨by simpa using hleads.emitted_le, hleads.running, by simpa using hleads.running_behind, hleads.shallow⟩

/-- Two runs that count the same in silence keep their distance. -/
theorem Leads.advance {ahead behind ahead' behind' : Progress} {count : Nat} (hleads : ahead.Leads behind)
    (hahead : ahead.Advances ahead' count) (hbehind : behind.Advances behind' count)
    (hsilent : ahead'.warnings = ahead.warnings) (hsilent' : behind'.warnings = behind.warnings) :
    ahead'.Leads behind' := by
  obtain ⟨hexhausted, hdepth⟩ := hahead.silent hsilent
  obtain ⟨hexhausted', _⟩ := hbehind.silent hsilent'
  refine ⟨?_, hexhausted.trans hleads.running, hexhausted'.trans hleads.running_behind,
    hdepth.trans hleads.shallow⟩
  have hle := hleads.emitted_le
  rw [hahead.emitted_eq, hbehind.emitted_eq]
  omega

end Progress

namespace Grammar

variable {grammar : Grammar} {limits raised : Limits}

/-- An extent that was found is the one found under higher ceilings wherever its window stands. -/
theorem extent_eq_shift_of_found (hraise : limits.RaisedTo raised) {body : Body} {index k : Nat}
    {window : List Text} (hsome : window ≠ [])
    (hfound : (grammar.extent limits body (index + k) window).isDegraded = false) :
    grammar.extent limits body (index + k) window = (grammar.extent raised body index window).shift k := by
  have hpos := List.length_pos_iff.2 hsome
  have hlast := (grammar.admits_extent limits body (index + k) hsome).last_le
  have hraised := grammar.extent_settled hraise hpos (Nat.le_refl _) hfound (by omega)
  rw [List.take_length] at hraised
  rw [← grammar.extent_shift raised body index k hsome, hraised]

/-- A silent scan of a window that opens with an accepted line has room for a declaration and finds its
extent; unless the name is blank, both what stands inside and what comes after is scanned in silence. -/
theorem scanLines_silent_cases {depth index : Nat} {carry skipped : Carry} {progress : Progress} {line : Text}
    {rest : List Text} {heading : Heading} {attrs : Text} {pending : Pending} {extent : Extent}
    (hrunning : progress.exhausted = false)
    (hrole : grammar.roleOf carry line rest = .heads heading attrs pending skipped)
    (hextent : grammar.extent limits heading.rule.body index (line :: rest) = extent)
    (hsilent : (grammar.scanLines limits depth index carry progress (line :: rest)).2.warnings =
      progress.warnings) :
    progress.emitted < limits.maxDeclarations ∧ extent.isDegraded = false ∧
      (((Text.trim heading.name).isEmpty = true ∧
        grammar.scanLines limits depth index carry progress (line :: rest) =
          grammar.scanLines limits depth (index + 1) skipped progress rest) ∨
      ∃ declared inner later,
        grammar.declaration? index attrs heading extent pending (line :: rest) = some declared ∧
        grammar.scanInside limits depth index heading extent declared progress rest = inner ∧
        grammar.scanLines limits depth (extent.last + 1) .start inner.2 (rest.drop (extent.last - index)) =
          later ∧
        inner.2.warnings = progress.warnings ∧ later.2.warnings = inner.2.warnings ∧
        grammar.scanLines limits depth index carry progress (line :: rest) =
          (declared.withChildren inner.1 :: later.1, later.2)) := by
  by_cases hfull : limits.maxDeclarations ≤ progress.emitted
  · rw [scanLines_full hrunning hrole hfull] at hsilent
    simp [Progress.exhaust, Progress.warn] at hsilent
  have hroom := Nat.not_le.1 hfull
  have hnoted := progress.advances_noteExtent index heading extent
  refine ⟨hroom, ?_⟩
  by_cases hblank : (Text.trim heading.name).isEmpty = true
  · rw [scanLines_rejected hrunning hrole hroom hextent hblank] at hsilent ⊢
    obtain ⟨hquiet, _⟩ := hnoted.warnings_eq (scanLines_advances grammar limits rest _ _ _ _) hsilent
    have hfound := Progress.found_of_noteExtent hquiet
    rw [Progress.noteExtent_of_found _ _ _ hfound]
    exact ⟨hfound, .inl ⟨hblank, rfl⟩⟩
  · obtain ⟨declared, hdeclared⟩ := exists_declaration hblank
    rw [scanLines_opening hrunning hrole hroom hextent hdeclared] at hsilent ⊢
    have hinner := scanInside_advances grammar limits depth index heading extent declared
      (progress.noteExtent index heading extent) rest
    have hlater := scanLines_advances grammar limits (rest.drop (extent.last - index)) depth (extent.last + 1)
      .start (grammar.scanInside limits depth index heading extent declared
        (progress.noteExtent index heading extent) rest).2
    obtain ⟨hquiet, hafter⟩ := hnoted.warnings_eq (hinner.trans hlater) hsilent
    have hfound := Progress.found_of_noteExtent hquiet
    rw [Progress.noteExtent_of_found _ _ _ hfound] at hinner hlater hafter ⊢
    obtain ⟨hinside, hafter⟩ := hinner.warnings_eq hlater hafter
    exact ⟨hfound, .inr ⟨declared, _, _, hdeclared, rfl, rfl, hinside, hafter, rfl⟩⟩

/-- A container that is cut off for its depth is reported the first time. -/
theorem shallow_of_silent {noted : Progress} {declared : Declaration} (hshallow : noted.depthWarned = false)
    (hsilent : (noted.emit.noteDepth limits declared).warnings = noted.warnings) : False := by
  have hopen : ¬ noted.emit.depthWarned = true := by simp [Progress.emit, hshallow]
  rw [Progress.noteDepth, if_neg hopen] at hsilent
  simp [Progress.warn, Progress.emit] at hsilent

/-- What stands inside a declaration is scanned in silence under higher ceilings too, if that holds of the
scan of its interior. -/
theorem scanInside_settled_of_scan (hraise : limits.RaisedTo raised) {depth depth' index k : Nat}
    {heading : Heading} {extent : Extent} {declared : Declaration} {progress progress' : Progress}
    {rest : List Text} (hdepth : depth' ≤ depth) (hleads : progress.Leads progress')
    (hscan : ∀ {progress progress' : Progress}, progress.Leads progress' →
      (grammar.scanLines limits (depth + 1) (extent.headerEnd + 1 + k) .start progress
        (grammar.interior index extent rest)).2.warnings = progress.warnings →
      (grammar.scanLines limits (depth + 1) (extent.headerEnd + 1 + k) .start progress
          (grammar.interior index extent rest)).1 =
        Declaration.shiftAll k (grammar.scanLines raised (depth' + 1) (extent.headerEnd + 1) .start progress'
          (grammar.interior index extent rest)).1 ∧
      (grammar.scanLines raised (depth' + 1) (extent.headerEnd + 1) .start progress'
        (grammar.interior index extent rest)).2.warnings = progress'.warnings)
    (hsilent : (grammar.scanInside limits depth (index + k) heading (extent.shift k) (declared.shift k)
      progress rest).2.warnings = progress.warnings) :
    (grammar.scanInside limits depth (index + k) heading (extent.shift k) (declared.shift k) progress rest).1 =
        Declaration.shiftAll k
          (grammar.scanInside raised depth' index heading extent declared progress' rest).1 ∧
      (grammar.scanInside raised depth' index heading extent declared progress' rest).2.warnings =
        progress'.warnings := by
  have hmaxDepth := hraise.maxDepth_le
  rcases scanInside_cases grammar limits depth (index + k) heading (extent.shift k) (declared.shift k)
    progress rest with ⟨hclosed, hinside⟩ | ⟨_, _, hinside⟩ | ⟨hopen, hdeep, hinside⟩ <;>
    rw [hinside] at hsilent ⊢
  · rw [Extent.hasInterior_shift] at hclosed
    rw [scanInside, if_neg (by simp [hclosed])]
    exact ⟨rfl, rfl⟩
  · exact (shallow_of_silent hleads.shallow hsilent).elim
  · rw [Extent.hasInterior_shift] at hopen
    have hdeep' : ¬ raised.maxDepth ≤ depth' + 1 := by omega
    rw [scanInside, if_pos hopen, if_neg hdeep']
    rw [interior_shift, Extent.shift_headerEnd, Nat.add_right_comm] at hsilent ⊢
    exact hscan (hleads.advance progress.advances_emit progress'.advances_emit rfl rfl) hsilent

/-- A silent scan is the scan under higher ceilings of the same lines at any other place, less deep and
after fewer declarations, and that scan is silent too. -/
theorem scanLines_settled (hraise : limits.RaisedTo raised) (k : Nat) (window : List Text)
    {depth depth' index : Nat} {carry : Carry} {progress progress' : Progress} (hdepth : depth' ≤ depth)
    (hleads : progress.Leads progress')
    (hsilent : (grammar.scanLines limits depth (index + k) carry progress window).2.warnings =
      progress.warnings) :
    (grammar.scanLines limits depth (index + k) carry progress window).1 =
        Declaration.shiftAll k (grammar.scanLines raised depth' index carry progress' window).1 ∧
      (grammar.scanLines raised depth' index carry progress' window).2.warnings = progress'.warnings := by
  induction window using window_induction generalizing depth depth' index carry progress progress' with
  | nil =>
    rw [scanLines_nil, scanLines_nil]
    exact ⟨rfl, rfl⟩
  | cons line rest ih =>
    have hrunning := hleads.running
    have hrunning' := hleads.running_behind
    cases hrole : grammar.roleOf carry line rest with
    | passed further carried =>
      rw [scanLines_passed hrunning hrole] at hsilent ⊢
      rw [scanLines_passed hrunning' hrole]
      have hplace : index + k + 1 + further = index + 1 + further + k := by omega
      rw [hplace] at hsilent ⊢
      exact ih _ (by rw [List.length_drop]; omega) hdepth hleads hsilent
    | heads heading attrs pending skipped =>
      have hsome : line :: rest ≠ [] := List.cons_ne_nil line rest
      obtain ⟨hroom, hfound, hcases⟩ := scanLines_silent_cases hrunning hrole rfl hsilent
      have hroom' : progress'.emitted < raised.maxDeclarations :=
        Nat.lt_of_le_of_lt hleads.emitted_le (Nat.lt_of_lt_of_le hroom hraise.maxDeclarations_le)
      have hmoved := extent_eq_shift_of_found hraise hsome hfound
      obtain ⟨extent, hextent⟩ : ∃ extent, grammar.extent raised heading.rule.body index (line :: rest) =
        extent := ⟨_, rfl⟩
      rw [hmoved, hextent] at hfound hcases
      rw [Extent.isDegraded_shift] at hfound
      rcases hcases with
        ⟨hblank, hscan⟩ | ⟨moved, inner, later, hdeclared, hinner, hlater, hquiet, hquiet', hscan⟩
      · rw [scanLines_rejected hrunning' hrole hroom' hextent hblank,
          Progress.noteExtent_of_found _ _ _ hfound]
        rw [hscan, Nat.add_right_comm] at hsilent ⊢
        exact ih rest (Nat.le_refl _) hdepth hleads hsilent
      · rw [declaration?_shift, Option.map_eq_some_iff] at hdeclared
        obtain ⟨declared, hdeclared, rfl⟩ := hdeclared
        rw [hscan, scanLines_opening hrunning' hrole hroom' hextent hdeclared,
          Progress.noteExtent_of_found _ _ _ hfound]
        dsimp only
        subst hinner hlater
        obtain ⟨hchildren, hinside⟩ := scanInside_settled_of_scan hraise hdepth hleads
          (fun hleads hsilent => ih _ (length_interior_le grammar index extent rest).2 (by omega) hleads hsilent)
          hquiet
        have hadvance := scanInside_advances grammar limits depth (index + k) heading (extent.shift k)
          (declared.shift k) progress rest
        have hadvance' := scanInside_advances grammar raised depth' index heading extent declared progress' rest
        rw [hchildren, Declaration.totalAll_shiftAll] at hadvance
        have hplace : extent.last + k - (index + k) = extent.last - index := by omega
        rw [Extent.shift_last, hplace, Nat.add_right_comm] at hquiet' ⊢
        obtain ⟨hafter, hsilent'⟩ := ih (rest.drop (extent.last - index)) (by rw [List.length_drop]; omega)
          hdepth (hleads.advance hadvance hadvance' hquiet hinside) hquiet'
        refine ⟨?_, hsilent'.trans hinside⟩
        rw [hafter, hchildren, Declaration.shiftAll_cons, Declaration.shift_withChildren]

/-- A silent scan is a complete scan: higher ceilings and another guess for bodies without an end give the same
declarations, in silence again. The opening of a body is looked for equally far under both limits; nothing is assumed
of the grammar and the text. By `scan?_of_silent` no sum breaks such a scan down. -/
theorem scan_eq_of_silent (grammar : Grammar) {limits raised : Limits} (hraise : limits.RaisedTo raised)
    (t : Text) (hsilent : (grammar.scan limits t).2 = []) :
    grammar.scan raised t = ((grammar.scan limits t).1, []) := by
  have hleads : Progress.start.Leads Progress.start := ⟨Nat.le_refl _, rfl, rfl, rfl⟩
  obtain ⟨hsame, hquiet⟩ := scanLines_settled hraise 0 (Text.lines t) (Nat.le_refl 0) hleads hsilent
  rw [Declaration.shiftAll_zero] at hsame
  exact Prod.ext hsame.symm hquiet

/-- A nested outline of three declarations that just fits under its ceilings. -/
theorem scan_eq_of_silent_snug :
    (rust.scan ⟨⟨3, 40, 0, 8⟩, 2, 3⟩
        "mod m \x7b\n    fn f() \x7b\n    \x7d\n\x7d\nfn g() \x7b\x7d\n".toList).2 = [] ∧
      rust.scan {} "mod m \x7b\n    fn f() \x7b\n    \x7d\n\x7d\nfn g() \x7b\x7d\n".toList =
        ((rust.scan ⟨⟨3, 40, 0, 8⟩, 2, 3⟩
          "mod m \x7b\n    fn f() \x7b\n    \x7d\n\x7d\nfn g() \x7b\x7d\n".toList).1, []) := by
  have hraise : Limits.RaisedTo ⟨⟨3, 40, 0, 8⟩, 2, 3⟩ {} :=
    ⟨⟨rfl, by decide, by decide⟩, by decide, by decide⟩
  have hsilent : (rust.scan ⟨⟨3, 40, 0, 8⟩, 2, 3⟩
      "mod m \x7b\n    fn f() \x7b\n    \x7d\n\x7d\nfn g() \x7b\x7d\n".toList).2 = [] := by
    decide +kernel
  exact ⟨hsilent, scan_eq_of_silent rust hraise _ hsilent⟩

end Grammar

end Outline
