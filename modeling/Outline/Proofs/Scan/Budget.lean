import Outline.Proofs.Declaration.Levels
import Outline.Proofs.Grammar.Names
import Outline.Proofs.Scan.Accounting
import Outline.Proofs.Scan.Geometry
import Outline.Proofs.Scan.Interior

namespace Outline

/-- The limits with other ceilings on nesting and on the number of declarations. No search for a last line is
given these two. -/
def Limits.recapped (limits : Limits) (maxDepth maxDeclarations : Nat) : Limits :=
  { limits with maxDepth := maxDepth, maxDeclarations := maxDeclarations }

theorem Grammar.extent_recapped (grammar : Grammar) (limits : Limits) (maxDepth maxDeclarations : Nat)
    (body : Body) (index : Nat) (window : List Text) :
    grammar.extent (limits.recapped maxDepth maxDeclarations) body index window =
      grammar.extent limits body index window := rfl

namespace Progress

/-- What is reported when a limit of declarations stops a run at a line. -/
def limitWarning (budget line : Nat) : String :=
  "declaration limit of " ++ toString budget ++ " reached at line " ++ toString line ++
    "; remaining declarations skipped"

/-- Whether a warning reports the limit of declarations. -/
def isLimitWarning (warning : String) : Bool :=
  Text.startsWith "declaration limit".toList warning.toList

theorem warnings_exhaust (progress : Progress) (limits : Limits) (index : Nat) :
    (progress.exhaust limits index).warnings =
      progress.warnings ++ [limitWarning limits.maxDeclarations (index + 1)] := rfl

theorem isLimitWarning_limitWarning (budget line : Nat) : isLimitWarning (limitWarning budget line) = true := by
  have hopens : "declaration limit of ".toList = "declaration limit".toList ++ " of ".toList := by decide
  have hopening : ∀ rest : String, isLimitWarning ("declaration limit of " ++ rest) = true := by
    intro rest
    have hparts : ("declaration limit of " ++ rest).toList =
        "declaration limit".toList ++ (" of ".toList ++ rest.toList) := by
      rw [String.toList_append, hopens, List.append_assoc]
    rw [isLimitWarning, Text.startsWith, Text.strip?_eq_some_iff.2 hparts, Option.isSome_some]
  have hassoc : ∀ a b c d e : String, a ++ b ++ c ++ d ++ e = a ++ (b ++ c ++ d ++ e) := by
    intro a b c d e
    simp only [String.append_assoc]
  exact (congrArg isLimitWarning (hassoc _ _ _ _ _)).trans (hopening _)

theorem isLimitWarning_line (message : String) : isLimitWarning ("line " ++ message) = false := by
  have hopens : "line ".toList = ['l', 'i', 'n', 'e', ' '] := by decide
  have hmark : "declaration limit".toList = 'd' :: "eclaration limit".toList := by decide
  rw [isLimitWarning, String.toList_append, hopens, hmark]
  rfl

/-- `after` comes from `before` in a run under the limit of declarations: a run that has stopped stays so, it
stops at the limit only, and unless it stops it reports no limit. -/
structure Heeds (limits : Limits) (before after : Progress) : Prop where
  emitted_le : before.emitted ≤ after.emitted
  stays : before.exhausted = true → after.exhausted = true
  full : after.exhausted = true → before.exhausted = true ∨ limits.maxDeclarations ≤ after.emitted
  unreported : after.exhausted = false →
    ∀ warning ∈ after.warnings, warning ∈ before.warnings ∨ isLimitWarning warning = false

variable {limits : Limits} {first second third : Progress}

theorem Heeds.refl (progress : Progress) : progress.Heeds limits progress :=
  ⟨Nat.le_refl _, id, .inl, fun _ _ hmem => .inl hmem⟩

theorem Heeds.running (h : first.Heeds limits second) (hrunning : second.exhausted = false) :
    first.exhausted = false := by
  cases hfirst : first.exhausted with
  | false => rfl
  | true =>
    have := h.stays hfirst
    simp [hrunning] at this

theorem Heeds.trans (hfirst : first.Heeds limits second) (hsecond : second.Heeds limits third) :
    first.Heeds limits third := by
  refine ⟨Nat.le_trans hfirst.emitted_le hsecond.emitted_le, fun h => hsecond.stays (hfirst.stays h), ?_, ?_⟩
  · intro hstopped
    rcases hsecond.full hstopped with hstopped | hfull
    · exact (hfirst.full hstopped).imp_right fun hfull => Nat.le_trans hfull hsecond.emitted_le
    · exact .inr hfull
  · intro hrunning warning hmem
    rcases hsecond.unreported hrunning warning hmem with hmem | hother
    · exact hfirst.unreported (hsecond.running hrunning) warning hmem
    · exact .inr hother

theorem heeds_emit (progress : Progress) : progress.Heeds limits progress.emit :=
  ⟨Nat.le_succ _, id, .inl, fun _ _ hmem => .inl hmem⟩

theorem heeds_exhaust {progress : Progress} (hfull : limits.maxDeclarations ≤ progress.emitted) (index : Nat) :
    progress.Heeds limits (progress.exhaust limits index) :=
  ⟨Nat.le_refl _, fun _ => rfl, fun _ => .inr hfull, fun hrunning => Bool.noConfusion hrunning⟩

/-- A step that only reports something about a line heeds the limit. -/
theorem Heeds.of_line {before after : Progress} (message : String) (hemitted : after.emitted = before.emitted)
    (hexhausted : after.exhausted = before.exhausted)
    (hwarnings : after.warnings = before.warnings ++ ["line " ++ message]) : before.Heeds limits after := by
  refine ⟨Nat.le_of_eq hemitted.symm, fun h => hexhausted.trans h, fun h => .inl (hexhausted.symm.trans h), ?_⟩
  intro _ warning hmem
  rw [hwarnings, List.mem_append, List.mem_singleton] at hmem
  rcases hmem with hmem | rfl
  · exact .inl hmem
  · exact .inr (isLimitWarning_line message)

theorem heeds_noteExtent (progress : Progress) (index : Nat) (heading : Heading) (extent : Extent) :
    progress.Heeds limits (progress.noteExtent index heading extent) := by
  unfold noteExtent
  split
  · simp only [String.append_assoc]
    exact .of_line _ rfl rfl rfl
  · exact .refl _

theorem heeds_noteDepth (progress : Progress) (parent : Declaration) :
    progress.Heeds limits (progress.noteDepth limits parent) := by
  unfold noteDepth
  split
  · exact .refl _
  · simp only [String.append_assoc]
    exact .of_line _ rfl rfl rfl

end Progress

namespace Grammar

variable {grammar : Grammar} {limits : Limits}

/-- A scan stops at the limit of declarations only, and reports the limit only if it stops. -/
theorem scanLines_heeds (grammar : Grammar) (limits : Limits) (window : List Text) (depth index : Nat)
    (carry : Carry) (progress : Progress) :
    progress.Heeds limits (grammar.scanLines limits depth index carry progress window).2 := by
  induction window using window_induction generalizing depth index carry progress with
  | nil =>
    rw [scanLines_nil]
    exact .refl _
  | cons line rest ih =>
    by_cases hstopped : progress.exhausted = true
    · rw [scanLines_exhausted hstopped]
      exact .refl _
    have hrunning : progress.exhausted = false := by simpa using hstopped
    cases hrole : grammar.roleOf carry line rest with
    | passed further carried =>
      rw [scanLines_passed hrunning hrole]
      exact ih _ (by rw [List.length_drop]; omega) _ _ _ _
    | heads heading attrs pending skipped =>
      by_cases hfull : limits.maxDeclarations ≤ progress.emitted
      · rw [scanLines_full hrunning hrole hfull]
        exact Progress.heeds_exhaust hfull index
      obtain ⟨extent, hextent⟩ : ∃ extent, grammar.extent limits heading.rule.body index (line :: rest) =
        extent := ⟨_, rfl⟩
      have hnoted : progress.Heeds limits (progress.noteExtent index heading extent) :=
        progress.heeds_noteExtent index heading extent
      by_cases hblank : (Text.trim heading.name).isEmpty = true
      · rw [scanLines_rejected hrunning hrole (Nat.not_le.1 hfull) hextent hblank]
        exact hnoted.trans (ih rest (Nat.le_refl _) depth (index + 1) skipped _)
      · obtain ⟨declared, hdeclared⟩ := exists_declaration hblank
        rw [scanLines_declared hrunning hrole (Nat.not_le.1 hfull) hextent hdeclared]
        have hinner : (progress.noteExtent index heading extent).Heeds limits
            (grammar.scanInside limits depth index heading extent declared
              (progress.noteExtent index heading extent) rest).2 := by
          rcases scanInside_cases grammar limits depth index heading extent declared
            (progress.noteExtent index heading extent) rest with
            ⟨_, hinside⟩ | ⟨_, _, hinside⟩ | ⟨_, _, hinside⟩ <;> rw [hinside]
          · exact Progress.heeds_emit _
          · exact (Progress.heeds_emit _).trans (Progress.heeds_noteDepth _ _)
          · exact (Progress.heeds_emit _).trans
              (ih _ (length_interior_le grammar index extent rest).2 _ _ _ _)
        exact hnoted.trans (hinner.trans (ih _ (by rw [List.length_drop]; omega) _ _ _ _))

/-- A scan that does not stop has room for what it meets. -/
theorem room_of_running {depth index : Nat} {carry skipped : Carry} {progress : Progress} {line : Text}
    {rest : List Text} {heading : Heading} {attrs : Text} {pending : Pending}
    (hrunning : progress.exhausted = false)
    (hrole : grammar.roleOf carry line rest = .heads heading attrs pending skipped)
    (hwhole : (grammar.scanLines limits depth index carry progress (line :: rest)).2.exhausted = false) :
    progress.emitted < limits.maxDeclarations := by
  refine Nat.not_le.1 fun hfull => ?_
  rw [scanLines_full hrunning hrole hfull] at hwhole
  exact Bool.noConfusion hwhole

/-- In a grammar whose names are visible, every line that a rule accepts declares something. -/
theorem NamesVisible.exists_declaration (hnames : grammar.NamesVisible) {carry skipped : Carry} {line : Text}
    {rest : List Text} {heading : Heading} {attrs : Text} {pending : Pending}
    (hrole : grammar.roleOf carry line rest = .heads heading attrs pending skipped) (index : Nat)
    (extent : Extent) :
    ∃ declared, grammar.declaration? index attrs heading extent pending (line :: rest) = some declared :=
  Grammar.exists_declaration (hnames.of_heading? (headingOn?_of_heads hrole)).trim_ne

section CutAt

/-- How a scan with a limit compares with the same scan without it, when `counted` declarations stand before
both: they are the same if all the declarations fit, and otherwise the limit leaves the first ones of a walk
and is the last thing reported. -/
inductive CutAt (budget counted : Nat) (whole : List Declaration × Progress) :
    List Declaration × Progress → Prop
  | complete (hfits : whole.2.emitted ≤ budget) : CutAt budget counted whole whole
  | stopped {found : List Declaration} {reached : Progress} {before : List String} {line : Nat}
      (hover : budget < whole.2.emitted) (hstopped : reached.exhausted = true)
      (hwalk : ∀ level, Declaration.leveledAll level found =
        (Declaration.leveledAll level whole.1).take (budget - counted))
      (hwarnings : reached.warnings = before ++ [Progress.limitWarning budget line])
      (hbefore : before <+: whole.2.warnings) : CutAt budget counted whole (found, reached)

variable {budget counted ample maxDepth depth index : Nat} {begun : Progress} {declared : Declaration}
  {inner innerCut later laterCut : List Declaration × Progress}

theorem CutAt.eq_of_fits (h : CutAt budget counted inner innerCut) (hfits : inner.2.emitted ≤ budget) :
    innerCut = inner := by
  cases h with
  | complete => rfl
  | stopped hover => exact absurd hover (Nat.not_lt.2 hfits)

theorem CutAt.mem_leveledAll (h : CutAt budget counted inner innerCut) {level : Nat} {node : Nat × Entry}
    (hmem : node ∈ Declaration.leveledAll level innerCut.1) : node ∈ Declaration.leveledAll level inner.1 := by
  cases h with
  | complete => exact hmem
  | stopped _ _ hwalk =>
    rw [hwalk] at hmem
    exact List.mem_of_mem_take hmem

theorem CutAt.exhausted_of_over (h : CutAt budget counted inner innerCut) (hover : budget < inner.2.emitted) :
    innerCut.2.exhausted = true := by
  cases h with
  | complete hfits => exact absurd hover (Nat.not_lt.2 hfits)
  | stopped _ hstopped => exact hstopped

/-- A limit that is used up where a declaration stands stops the scan there. -/
theorem CutAt.of_full {whole : List Declaration × Progress} (hfull : begun.emitted = budget)
    (hwhole : begun.Advances whole.2 (Declaration.totalAll whole.1)) (hmore : 0 < Declaration.totalAll whole.1)
    (hlimit : limits.maxDeclarations = budget) :
    CutAt budget begun.emitted whole ([], begun.exhaust limits index) := by
  have hcount := hwhole.emitted_eq
  refine .stopped (by omega) rfl ?_ (hlimit ▸ begun.warnings_exhaust limits index) hwhole.warnings_prefix
  intro level
  rw [hfull, Nat.sub_self, List.take_zero, Declaration.leveledAll_nil]

/-- The limit is met inside a declaration: nothing behind the declaration is found. -/
theorem CutAt.opening_of_stopped (hroom : counted < budget)
    (hinner : inner.2.emitted = counted + 1 + Declaration.totalAll inner.1)
    (hlater : inner.2.Advances later.2 (Declaration.totalAll later.1)) (hover : budget < inner.2.emitted)
    (hcut : CutAt budget (counted + 1) inner innerCut) :
    CutAt budget counted (declared.withChildren inner.1 :: later.1, later.2)
      ([declared.withChildren innerCut.1], innerCut.2) := by
  cases hcut with
  | complete hfits => exact absurd hover (Nat.not_lt.2 hfits)
  | stopped _ hstopped hwalk hwarnings hbefore =>
    have hcount := hlater.emitted_eq
    refine .stopped (by dsimp only; omega) hstopped ?_ hwarnings (hbefore.trans hlater.warnings_prefix)
    intro level
    have hlength := Declaration.length_leveledAll (level + 1) inner.1
    have hslots : budget - counted = budget - (counted + 1) + 1 := by omega
    have hinside : budget - (counted + 1) ≤ (Declaration.leveledAll (level + 1) inner.1).length := by omega
    rw [Declaration.leveledAll_withChildren, Declaration.leveledAll_withChildren, Declaration.leveledAll_nil,
      List.append_nil, hslots, List.take_succ_cons, List.take_append_of_le_length hinside, hwalk]

/-- The declaration fits with all that is inside it: the limit is met behind it or not at all. -/
theorem CutAt.opening_of_complete (hinner : inner.2.emitted = counted + 1 + Declaration.totalAll inner.1)
    (hfits : inner.2.emitted ≤ budget) (hcut : CutAt budget inner.2.emitted later laterCut) :
    CutAt budget counted (declared.withChildren inner.1 :: later.1, later.2)
      (declared.withChildren inner.1 :: laterCut.1, laterCut.2) := by
  cases hcut with
  | complete hall => exact .complete hall
  | stopped hover hstopped hwalk hwarnings hbefore =>
    refine .stopped hover hstopped ?_ hwarnings hbefore
    intro level
    have hlength := Declaration.length_leveledAll (level + 1) inner.1
    have hslots : budget - counted =
        (Declaration.leveledAll (level + 1) inner.1).length + (budget - inner.2.emitted) + 1 := by omega
    rw [Declaration.leveledAll_withChildren, Declaration.leveledAll_withChildren, hslots, List.take_succ_cons,
      List.take_length_add_append, hwalk]

/-- What stands inside a declaration is cut as the scan of the interior is. -/
theorem scanInside_cutAt (heading : Heading) (declared : Declaration) {extent : Extent} {noted : Progress}
    {rest : List Text}
    (hroom : noted.emitted < budget)
    (hscan : (grammar.scanLines (limits.recapped maxDepth ample) (depth + 1) (extent.headerEnd + 1) .start
        noted.emit (grammar.interior index extent rest)).2.exhausted = false →
      CutAt budget noted.emit.emitted
        (grammar.scanLines (limits.recapped maxDepth ample) (depth + 1) (extent.headerEnd + 1) .start noted.emit
          (grammar.interior index extent rest))
        (grammar.scanLines (limits.recapped maxDepth budget) (depth + 1) (extent.headerEnd + 1) .start noted.emit
          (grammar.interior index extent rest)))
    (hwhole : (grammar.scanInside (limits.recapped maxDepth ample) depth index heading extent declared noted
      rest).2.exhausted = false) :
    CutAt budget (noted.emitted + 1)
      (grammar.scanInside (limits.recapped maxDepth ample) depth index heading extent declared noted rest)
      (grammar.scanInside (limits.recapped maxDepth budget) depth index heading extent declared noted rest) := by
  rcases scanInside_cases grammar (limits.recapped maxDepth ample) depth index heading extent declared noted rest
    with ⟨hclosed, hinside⟩ | ⟨hopen, hdeep, hinside⟩ | ⟨hopen, hdeep, hinside⟩
  · rw [hinside, scanInside_closed hclosed]
    exact .complete hroom
  · have hcount := (noted.emit.advances_noteDepth (limits.recapped maxDepth ample) declared).emitted_eq
    have hdeep' : (limits.recapped maxDepth budget).maxDepth ≤ depth + 1 := hdeep
    rw [hinside, scanInside_tooDeep hopen hdeep']
    exact .complete (Nat.le_trans (Nat.le_of_eq hcount) hroom)
  · have hdeep' : depth + 1 < (limits.recapped maxDepth budget).maxDepth := hdeep
    rw [hinside] at hwhole ⊢
    rw [scanInside_open hopen hdeep']
    exact hscan hwhole

/-- A scan with a limit on declarations is cut off the same scan without one. -/
theorem scanLines_cutAt (hnames : grammar.NamesVisible) (limits : Limits) {ample : Nat}
    (maxDepth budget : Nat) (window : List Text) (depth index : Nat) (carry : Carry) (progress : Progress)
    (hbudget : progress.emitted ≤ budget)
    (hwhole : (grammar.scanLines (limits.recapped maxDepth ample) depth index carry progress
      window).2.exhausted = false) :
    CutAt budget progress.emitted
      (grammar.scanLines (limits.recapped maxDepth ample) depth index carry progress window)
      (grammar.scanLines (limits.recapped maxDepth budget) depth index carry progress window) := by
  induction window using window_induction generalizing depth index carry progress with
  | nil =>
    rw [scanLines_nil, scanLines_nil]
    exact .complete hbudget
  | cons line rest ih =>
    have hrunning := (scanLines_heeds grammar (limits.recapped maxDepth ample) (line :: rest) depth index carry
      progress).running hwhole
    cases hrole : grammar.roleOf carry line rest with
    | passed further carried =>
      rw [scanLines_passed hrunning hrole] at hwhole ⊢
      rw [scanLines_passed hrunning hrole]
      exact ih _ (by rw [List.length_drop]; omega) _ _ _ _ hbudget hwhole
    | heads heading attrs pending skipped =>
      have hroom := room_of_running hrunning hrole hwhole
      obtain ⟨extent, hextent⟩ : ∃ extent, grammar.extent limits heading.rule.body index (line :: rest) =
        extent := ⟨_, rfl⟩
      obtain ⟨declared, hdeclared⟩ := hnames.exists_declaration hrole index extent
      have hopening : grammar.scanLines (limits.recapped maxDepth ample) depth index carry progress
          (line :: rest) = _ := scanLines_opening hrunning hrole hroom
        ((grammar.extent_recapped limits maxDepth ample _ _ _).trans hextent) hdeclared
      by_cases hfull : budget ≤ progress.emitted
      · rw [scanLines_full hrunning hrole (show (limits.recapped maxDepth budget).maxDeclarations ≤ _ from hfull)]
        refine .of_full (Nat.le_antisymm hbudget hfull) (scanLines_advances ..) ?_ rfl
        rw [hopening, Declaration.totalAll_cons]
        omega
      rw [hopening] at hwhole ⊢
      rw [scanLines_opening hrunning hrole
        (show _ < (limits.recapped maxDepth budget).maxDeclarations from Nat.not_le.1 hfull)
        ((grammar.extent_recapped limits maxDepth budget _ _ _).trans hextent) hdeclared]
      have hnoted := progress.emitted_noteExtent index heading extent
      have hleft : (progress.noteExtent index heading extent).emitted < budget := by omega
      have hcut := scanInside_cutAt heading declared hleft
        (ih _ (length_interior_le grammar index extent rest).2 (depth + 1) (extent.headerEnd + 1) .start
          (progress.noteExtent index heading extent).emit hleft)
        ((scanLines_heeds ..).running hwhole)
      have hinner := (grammar.scanInside_advances (limits.recapped maxDepth ample) depth index heading extent
        declared (progress.noteExtent index heading extent) rest).emitted_eq
      rw [hnoted] at hinner hcut
      -- either the limit is met inside the declaration, and both loops unwind, or the scans go on behind it
      dsimp only at hwhole ⊢
      by_cases hfits : (grammar.scanInside (limits.recapped maxDepth ample) depth index heading extent declared
        (progress.noteExtent index heading extent) rest).2.emitted ≤ budget
      · rw [hcut.eq_of_fits hfits]
        exact .opening_of_complete (by omega) hfits
          (ih _ (by rw [List.length_drop]; omega) _ _ _ _ hfits hwhole)
      · rw [scanLines_exhausted (hcut.exhausted_of_over (Nat.not_le.1 hfits))]
        exact .opening_of_stopped (Nat.not_le.1 hfull) (by omega) (scanLines_advances ..) (Nat.not_le.1 hfits) hcut

end CutAt

/-- The scan of a whole text counts what it finds, which is no more than there are lines. -/
theorem emitted_scanLines_lines (grammar : Grammar) (limits : Limits) (t : Text) :
    (grammar.scanLines limits 0 0 .start .start (Text.lines t)).2.emitted =
        Declaration.totalAll (grammar.scan limits t).1 ∧
      Declaration.totalAll (grammar.scan limits t).1 ≤ (Text.lines t).length := by
  have hcount : _ = 0 + _ := (scanLines_advances grammar limits (Text.lines t) 0 0 .start .start).emitted_eq
  have htotal := (scanLines_ordered grammar limits (Text.lines t) 0 0 .start .start).totalAll_le
  simp only [scan]
  omega

/-- A limit above the number of lines is never met. -/
theorem exhausted_scanLines_lines (grammar : Grammar) (limits : Limits) {t : Text}
    (hample : (Text.lines t).length < limits.maxDeclarations) :
    (grammar.scanLines limits 0 0 .start .start (Text.lines t)).2.exhausted = false := by
  obtain ⟨hcount, htotal⟩ := emitted_scanLines_lines grammar limits t
  cases hstopped : (grammar.scanLines limits 0 0 .start .start (Text.lines t)).2.exhausted with
  | false => rfl
  | true =>
    rcases (scanLines_heeds ..).full hstopped with hbefore | hfull
    · exact Bool.noConfusion hbefore
    · omega

/-- What a limit of `budget` declarations leaves of the outline and the warnings of a text. -/
structure TruncatedTo (budget : Nat) (whole cut : List Declaration × List String) : Prop where
  leveledAll_eq : Declaration.leveledAll 1 cut.1 =
    (Declaration.leveledAll 1 whole.1).take (min budget (Declaration.totalAll whole.1))
  walkAll_eq : (Declaration.walkAll cut.1).map Declaration.entry =
    ((Declaration.walkAll whole.1).map Declaration.entry).take (min budget (Declaration.totalAll whole.1))
  reported_iff : (∃ warning ∈ cut.2, Progress.isLimitWarning warning = true) ↔
    budget < Declaration.totalAll whole.1
  warnings_eq : budget < Declaration.totalAll whole.1 → ∃ before line,
    cut.2 = before ++ [Progress.limitWarning budget line] ∧ before <+: whole.2 ∧
      ∀ warning ∈ before, Progress.isLimitWarning warning = false
  eq_whole : Declaration.totalAll whole.1 ≤ budget → cut = whole

theorem CutAt.leveledAll_eq {budget : Nat} {whole cut : List Declaration × Progress}
    (hcut : CutAt budget 0 whole cut) (hcount : whole.2.emitted = Declaration.totalAll whole.1) :
    Declaration.leveledAll 1 cut.1 =
      (Declaration.leveledAll 1 whole.1).take (min budget (Declaration.totalAll whole.1)) := by
  have hlength := Declaration.length_leveledAll 1 whole.1
  cases hcut with
  | complete hfits => rw [List.take_of_length_le (by omega)]
  | stopped hover _ hwalk =>
    dsimp only
    rw [hwalk, Nat.sub_zero, Nat.min_eq_left (by omega)]

theorem CutAt.truncatedTo {budget : Nat} {whole cut : List Declaration × Progress}
    (hcut : CutAt budget 0 whole cut) (hcount : whole.2.emitted = Declaration.totalAll whole.1)
    (hsilent : ∀ warning ∈ whole.2.warnings, Progress.isLimitWarning warning = false) :
    TruncatedTo budget (whole.1, whole.2.warnings) (cut.1, cut.2.warnings) := by
  have hwalk := hcut.leveledAll_eq hcount
  have hentries : (Declaration.walkAll cut.1).map Declaration.entry =
      ((Declaration.walkAll whole.1).map Declaration.entry).take (min budget (Declaration.totalAll whole.1)) := by
    rw [← Declaration.map_snd_leveledAll 1, ← Declaration.map_snd_leveledAll 1, hwalk, List.map_take]
  cases hcut with
  | complete hfits =>
    have hall : ¬ budget < Declaration.totalAll whole.1 := Nat.not_lt.2 (hcount ▸ hfits)
    refine ⟨hwalk, hentries, ⟨?_, fun hover => absurd hover hall⟩, fun hover => absurd hover hall, fun _ => rfl⟩
    rintro ⟨warning, hmem, hlimit⟩
    rw [hsilent warning hmem] at hlimit
    exact Bool.noConfusion hlimit
  | @stopped _ reached _ line hover _ _ hwarnings hbefore =>
    rw [hcount] at hover
    refine ⟨hwalk, hentries, ⟨fun _ => hover, fun _ => ?_⟩, fun _ => ?_,
      fun hfits => absurd hover (Nat.not_lt.2 hfits)⟩
    · have hlast : Progress.limitWarning budget line ∈ reached.warnings := by
        rw [hwarnings]
        exact List.mem_append_right _ List.mem_cons_self
      exact ⟨_, hlast, Progress.isLimitWarning_limitWarning budget line⟩
    · exact ⟨_, _, hwarnings, hbefore, fun warning hmem => hsilent warning (hbefore.subset hmem)⟩

/-- A limit on declarations leaves the first ones of a walk through the outline, whatever the language and the text.
It is reported if and only if there are more, and then once and last, behind warnings that are given without the
limit too. No text has more declarations than lines, so that more than these is ample. -/
theorem scan_truncatedTo (language : Language) (limits : Limits) (t : Text) {ample : Nat}
    (hample : (Text.lines t).length < ample) (budget : Nat) :
    TruncatedTo budget (language.grammar.scan { limits with maxDeclarations := ample } t)
      (language.grammar.scan { limits with maxDeclarations := budget } t) := by
  have hrunning := exhausted_scanLines_lines language.grammar (limits.recapped limits.maxDepth ample) hample
  have hcut := scanLines_cutAt (namesVisible language) limits limits.maxDepth budget (Text.lines t) 0 0 .start
    .start (Nat.zero_le budget) hrunning
  refine hcut.truncatedTo (emitted_scanLines_lines ..).1 ?_
  intro warning hmem
  rcases (scanLines_heeds ..).unreported hrunning warning hmem with hbegun | hother
  · simp [Progress.start] at hbegun
  · exact hother

/-- Three of five declarations are left when the limit is met in a class inside a class. -/
theorem scan_truncatedTo_nested :
    (Text.lines "class A:\n def f(self): pass\n class B:\n  x = 1\ndef g(): pass\n".toList).length < 6 ∧
      Declaration.totalAll (python.scan { maxDeclarations := 6 }
        "class A:\n def f(self): pass\n class B:\n  x = 1\ndef g(): pass\n".toList).1 = 5 ∧
      TruncatedTo 3
        (python.scan { maxDeclarations := 6 }
          "class A:\n def f(self): pass\n class B:\n  x = 1\ndef g(): pass\n".toList)
        (python.scan { maxDeclarations := 3 }
          "class A:\n def f(self): pass\n class B:\n  x = 1\ndef g(): pass\n".toList) :=
  ⟨by decide, by decide +kernel, scan_truncatedTo .python {} _ (by decide) 3⟩

end Grammar

end Outline
