import Outline.Proofs.Declaration.Shift
import Outline.Proofs.Scan.Accounting
import Outline.Proofs.Scan.Geometry

namespace Outline

/-- Depth and count of declarations can grow by one for each line of the window. -/
structure Limits.LeaveRoom (limits : Limits) (depth : Nat) (progress : Progress) (window : List Text) :
    Prop where
  running : progress.exhausted = false
  depth_le : depth + window.length ≤ limits.maxDepth
  emitted_le : progress.emitted + window.length ≤ limits.maxDeclarations

namespace Limits.LeaveRoom

variable {limits : Limits} {depth : Nat} {progress : Progress} {line : Text} {rest : List Text}

theorem start {window : List Text} (hdepth : window.length ≤ limits.maxDepth)
    (hcount : window.length ≤ limits.maxDeclarations) : limits.LeaveRoom 0 .start window :=
  ⟨rfl, by rwa [Nat.zero_add], by rwa [Progress.start, Nat.zero_add]⟩

/-- The window has room as a text of its own. -/
theorem alone {window : List Text} (hroom : limits.LeaveRoom depth progress window) :
    limits.LeaveRoom 0 .start window :=
  .start (Nat.le_trans (Nat.le_add_left _ depth) hroom.depth_le)
    (Nat.le_trans (Nat.le_add_left _ progress.emitted) hroom.emitted_le)

theorem emitted_lt (hroom : limits.LeaveRoom depth progress (line :: rest)) :
    progress.emitted < limits.maxDeclarations := by
  have hemitted := hroom.emitted_le
  rw [List.length_cons] at hemitted
  omega

theorem drop (hroom : limits.LeaveRoom depth progress (line :: rest)) (n : Nat) :
    limits.LeaveRoom depth progress (rest.drop n) := by
  obtain ⟨hrunning, hdepth, hemitted⟩ := hroom
  rw [List.length_cons] at hdepth hemitted
  refine ⟨hrunning, ?_, ?_⟩ <;> rw [List.length_drop] <;> omega

theorem noteExtent {window : List Text} (hroom : limits.LeaveRoom depth progress window) (index : Nat)
    (heading : Heading) (extent : Extent) :
    limits.LeaveRoom depth (progress.noteExtent index heading extent) window :=
  ⟨by simpa using hroom.running, hroom.depth_le, by simpa using hroom.emitted_le⟩

end Limits.LeaveRoom

namespace Grammar

variable {grammar : Grammar} {limits : Limits}

section Inside

variable {depth index : Nat} {heading : Heading} {extent : Extent} {noted : Progress} {line : Text}
  {rest : List Text}

/-- Where there is room, what stands inside a declaration is not scanned or scanned with room. -/
theorem scanInside_cases_of_room (grammar : Grammar) (hroom : limits.LeaveRoom depth noted (line :: rest))
    (hlast : extent.last ≤ index + rest.length) (hstart : index ≤ extent.headerEnd) (heading : Heading)
    (declared : Declaration) :
    ((heading.rule.kind.isContainer && extent.hasInterior) = false ∧
      grammar.scanInside limits depth index heading extent declared noted rest = ([], noted.emit)) ∨
    ((heading.rule.kind.isContainer && extent.hasInterior) = true ∧
      limits.LeaveRoom (depth + 1) noted.emit (grammar.interior index extent rest) ∧
      grammar.scanInside limits depth index heading extent declared noted rest =
        grammar.scanLines limits (depth + 1) (extent.headerEnd + 1) .start noted.emit
          (grammar.interior index extent rest)) := by
  obtain ⟨hrunning, hdepth, hemitted⟩ := hroom
  rw [List.length_cons] at hdepth hemitted
  have hlength := (length_interior_le grammar index extent rest).2
  rcases scanInside_cases grammar limits depth index heading extent declared noted rest with
    ⟨hclosed, hinside⟩ | ⟨hopen, hdeep, _⟩ | ⟨hopen, _, hinside⟩
  · exact .inl ⟨hclosed, hinside⟩
  · simp only [Extent.hasInterior, Bool.and_eq_true, decide_eq_true_eq] at hopen
    omega
  · refine .inr ⟨hopen, ⟨hrunning, by omega, ?_⟩, hinside⟩
    change noted.emitted + 1 + _ ≤ _
    omega

/-- The lines after a declaration have room, unless what stands inside it stopped the scan. -/
theorem leaveRoom_after_of_running (hroom : limits.LeaveRoom depth noted (line :: rest))
    (hlast : extent.last ≤ index + rest.length) (hstart : index ≤ extent.headerEnd)
    (hheader : extent.headerEnd ≤ extent.last) {declared : Declaration}
    (hrunning :
      (grammar.scanInside limits depth index heading extent declared noted rest).2.exhausted = false) :
    limits.LeaveRoom depth (grammar.scanInside limits depth index heading extent declared noted rest).2
      (rest.drop (extent.last - index)) := by
  have hcount := (scanInside_advances grammar limits depth index heading extent declared noted rest).emitted_eq
  have hordered := scanInside_ordered_of_scan heading
    (fun _ _ => scanLines_ordered grammar limits (grammar.interior index extent rest) (depth + 1) _ _ _)
    declared noted
  have htotal := hordered.totalAll_le
  have hinterior := interiorLast_le grammar extent
  obtain ⟨_, hdepth, hemitted⟩ := hroom
  rw [List.length_cons] at hdepth hemitted
  refine ⟨hrunning, ?_, ?_⟩ <;> rw [List.length_drop] <;> omega

end Inside

/-- A scan with room is not stopped. -/
theorem scanLines_running (window : List Text) {depth index : Nat} {carry : Carry} {progress : Progress}
    (hroom : limits.LeaveRoom depth progress window) :
    (grammar.scanLines limits depth index carry progress window).2.exhausted = false := by
  induction window using window_induction generalizing depth index carry progress with
  | nil =>
    rw [scanLines_nil]
    exact hroom.running
  | cons line rest ih =>
    have hrunning := hroom.running
    cases hrole : grammar.roleOf carry line rest with
    | passed further carried =>
      rw [scanLines_passed hrunning hrole]
      exact ih _ (by rw [List.length_drop]; omega) (hroom.drop further)
    | heads heading attrs pending skipped =>
      obtain ⟨extent, hextent⟩ : ∃ extent, grammar.extent limits heading.rule.body index (line :: rest) =
        extent := ⟨_, rfl⟩
      have hnoted := hroom.noteExtent index heading extent
      by_cases hblank : (Text.trim heading.name).isEmpty = true
      · rw [scanLines_rejected hrunning hrole hroom.emitted_lt hextent hblank]
        exact ih rest (Nat.le_refl _) (hnoted.drop 0)
      · obtain ⟨declared, hdeclared⟩ := exists_declaration hblank
        rw [scanLines_opening hrunning hrole hroom.emitted_lt hextent hdeclared]
        obtain ⟨hstart, hheader, hlast⟩ :=
          hextent ▸ grammar.extent_bounds limits heading.rule.body index line rest
        refine ih _ (by rw [List.length_drop]; omega) (leaveRoom_after_of_running hnoted hlast hstart hheader ?_)
        rcases scanInside_cases_of_room grammar hnoted hlast hstart heading declared with
          ⟨_, hinside⟩ | ⟨_, hinner, hinside⟩ <;> rw [hinside]
        · exact hnoted.running
        · exact ih _ (length_interior_le grammar index extent rest).2 hinner

/-- Where there is room, the lines after a declaration have room. -/
theorem leaveRoom_after (grammar : Grammar) {depth index : Nat} {extent : Extent} {noted : Progress}
    {line : Text} {rest : List Text} (hroom : limits.LeaveRoom depth noted (line :: rest))
    (hlast : extent.last ≤ index + rest.length) (hstart : index ≤ extent.headerEnd)
    (hheader : extent.headerEnd ≤ extent.last) (heading : Heading) (declared : Declaration) :
    limits.LeaveRoom depth (grammar.scanInside limits depth index heading extent declared noted rest).2
      (rest.drop (extent.last - index)) := by
  refine leaveRoom_after_of_running hroom hlast hstart hheader ?_
  rcases scanInside_cases_of_room grammar hroom hlast hstart heading declared with
    ⟨_, hinside⟩ | ⟨_, hinner, hinside⟩ <;> rw [hinside]
  · exact hroom.running
  · exact scanLines_running _ hinner

end Grammar

namespace Progress

variable {first second third first' second' third' : Progress} {k : Nat}

/-- Two runs have guessed at the same lines, the first of them `k` lines further down. -/
def GuessAlike (k : Nat) (before after before' after' : Progress) : Prop :=
  ∃ lines : List Nat, after.guesses = before.guesses ++ lines.map (· + k) ∧
    after'.guesses = before'.guesses ++ lines

theorem GuessAlike.refl (k : Nat) (before before' : Progress) : GuessAlike k before before before' before' :=
  ⟨[], by simp, by simp⟩

theorem GuessAlike.trans (hone : GuessAlike k first second first' second')
    (htwo : GuessAlike k second third second' third') : GuessAlike k first third first' third' := by
  obtain ⟨lines, hmoved, hplace⟩ := hone
  obtain ⟨lines', hmoved', hplace'⟩ := htwo
  refine ⟨lines ++ lines', ?_, ?_⟩
  · rw [hmoved', hmoved, List.map_append, List.append_assoc]
  · rw [hplace', hplace, List.append_assoc]

theorem guessAlike_noteExtent (k index : Nat) (before before' : Progress) (heading : Heading)
    (extent : Extent) :
    GuessAlike k before (before.noteExtent (index + k) heading (extent.shift k)) before'
      (before'.noteExtent index heading extent) := by
  refine ⟨if extent.isDegraded then [index] else [], ?_, guesses_noteExtent before' index heading extent⟩
  rw [guesses_noteExtent, Extent.isDegraded_shift, apply_ite (List.map (· + k)), List.map_singleton,
    List.map_nil]

end Progress

namespace Grammar

variable {grammar : Grammar} {limits : Limits}

/-- One run has found what the other has found, `k` lines further down, and has guessed as often. -/
structure Displaced (k : Nat) (progress progress' : Progress) (moved found : List Declaration × Progress) :
    Prop where
  declarations_eq : moved.1 = Declaration.shiftAll k found.1
  guessAlike : Progress.GuessAlike k progress moved.2 progress' found.2

/-- What a scan with room finds in a window moves with the window. The depth of the window and what was
counted before it may differ between the two places. -/
theorem scanLines_displaced (window : List Text) {depth depth' index k : Nat} {carry : Carry}
    {progress progress' : Progress} (hroom : limits.LeaveRoom depth progress window)
    (hroom' : limits.LeaveRoom depth' progress' window) :
    Displaced k progress progress' (grammar.scanLines limits depth (index + k) carry progress window)
      (grammar.scanLines limits depth' index carry progress' window) := by
  induction window using window_induction generalizing depth depth' index carry progress progress' with
  | nil =>
    rw [scanLines_nil, scanLines_nil]
    exact ⟨rfl, .refl k progress progress'⟩
  | cons line rest ih =>
    cases hrole : grammar.roleOf carry line rest with
    | passed further carried =>
      have hplace : index + k + 1 + further = index + 1 + further + k := by omega
      have hlength : (rest.drop further).length = rest.length - further := List.length_drop
      rw [scanLines_passed hroom.running hrole, scanLines_passed hroom'.running hrole, hplace]
      exact ih _ (by omega) (hroom.drop further) (hroom'.drop further)
    | heads heading attrs pending skipped =>
      obtain ⟨extent, hextent⟩ : ∃ extent, grammar.extent limits heading.rule.body index (line :: rest) =
        extent := ⟨_, rfl⟩
      have hmoved : grammar.extent limits heading.rule.body (index + k) (line :: rest) = extent.shift k := by
        rw [← hextent]
        exact grammar.extent_shift limits heading.rule.body index k (List.cons_ne_nil line rest)
      obtain ⟨hstart, hheader, hlast⟩ :=
        hextent ▸ grammar.extent_bounds limits heading.rule.body index line rest
      obtain ⟨hstart', hheader', hlast'⟩ :=
        hmoved ▸ grammar.extent_bounds limits heading.rule.body (index + k) line rest
      have hnoted := hroom.noteExtent (index + k) heading (extent.shift k)
      have hnoted' := hroom'.noteExtent index heading extent
      have hguess := Progress.guessAlike_noteExtent k index progress progress' heading extent
      by_cases hblank : (Text.trim heading.name).isEmpty = true
      · rw [scanLines_rejected hroom.running hrole hroom.emitted_lt hmoved hblank,
          scanLines_rejected hroom'.running hrole hroom'.emitted_lt hextent hblank, Nat.add_right_comm]
        obtain ⟨hdeclarations, hlater⟩ := ih rest (Nat.le_refl _) (hnoted.drop 0) (hnoted'.drop 0)
        exact ⟨hdeclarations, hguess.trans hlater⟩
      · obtain ⟨declared, hdeclared⟩ := exists_declaration hblank
        have hdeclared' : grammar.declaration? (index + k) attrs heading (extent.shift k) pending
            (line :: rest) = some (declared.shift k) := by
          rw [declaration?_shift, hdeclared, Option.map_some]
        rw [scanLines_opening hroom.running hrole hroom.emitted_lt hmoved hdeclared',
          scanLines_opening hroom'.running hrole hroom'.emitted_lt hextent hdeclared]
        have hinside : Displaced k (progress.noteExtent (index + k) heading (extent.shift k))
            (progress'.noteExtent index heading extent)
            (grammar.scanInside limits depth (index + k) heading (extent.shift k) (declared.shift k)
              (progress.noteExtent (index + k) heading (extent.shift k)) rest)
            (grammar.scanInside limits depth' index heading extent declared
              (progress'.noteExtent index heading extent) rest) := by
          rcases scanInside_cases_of_room grammar hnoted' hlast hstart heading declared with
            ⟨hclosed, hinside'⟩ | ⟨hopen, hinner', hinside'⟩
          · rw [hinside', scanInside, if_neg (by simp [hclosed])]
            exact ⟨rfl, .refl k _ _⟩
          · rcases scanInside_cases_of_room grammar hnoted hlast' hstart' heading (declared.shift k) with
              ⟨hclosed, _⟩ | ⟨_, hinner, hinside⟩
            · simp [hopen] at hclosed
            · rw [interior_shift] at hinner hinside
              rw [hinside, hinside', Extent.shift_headerEnd, Nat.add_right_comm]
              obtain ⟨hchildren, hwithin⟩ :=
                ih _ (length_interior_le grammar index extent rest).2 hinner hinner'
              exact ⟨hchildren, hwithin⟩
        have hafter := leaveRoom_after grammar hnoted hlast' hstart' hheader' heading (declared.shift k)
        have hafter' := leaveRoom_after grammar hnoted' hlast hstart hheader heading declared
        have hplace : (extent.shift k).last - (index + k) = extent.last - index := by
          rw [Extent.shift_last]
          omega
        have hlength : (rest.drop (extent.last - index)).length = rest.length - (extent.last - index) :=
          List.length_drop
        rw [hplace] at hafter ⊢
        obtain ⟨hdeclarations, hlater⟩ := ih _ (by omega) hafter hafter'
        rw [Extent.shift_last, Nat.add_right_comm]
        refine ⟨?_, hguess.trans (hinside.guessAlike.trans hlater)⟩
        dsimp only
        rw [hinside.declarations_eq, hdeclarations, Declaration.shiftAll_cons,
          Declaration.shift_withChildren]

end Grammar

end Outline
