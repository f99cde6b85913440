import Outline.Grammar.All
import Outline.Proofs.Scan.Guesses
import Outline.Proofs.Scan.Room
import Outline.Proofs.Text.Lines

namespace Outline

namespace Grammar

variable {grammar : Grammar} {limits : Limits}

section Heading

/-- The code on a line, and what stands before it: a documentation block or nothing. -/
def codeOn (grammar : Grammar) (line : Text) : Text × Text :=
  if grammar.docs.startsBlockDoc (Text.trim line) then
    (grammar.docs.codeAfterBlockDoc? line).getD ([], line)
  else ([], line)

/-- What the code on a line declares, whatever stands around the line. -/
def headingOn? (grammar : Grammar) (line : Text) : Option Heading :=
  let parts := grammar.attributes.splitLeading (grammar.codeOn line).2
  grammar.heading? (Text.byteSize ((grammar.codeOn line).1 ++ parts.1)) parts.2

theorem preludeOfCode_eq_code {pending pending' : Pending} {lead lead' rest rest' line : Text}
    {following : List Text}
    (hcode : grammar.preludeOfCode pending lead rest line following = .code pending' lead' rest') :
    (lead', rest') = (lead, rest) := by
  simp only [preludeOfCode] at hcode
  split at hcode
  · simp at hcode
  · split at hcode
    · split at hcode
      · simp at hcode
      · obtain ⟨_, rfl, rfl⟩ := Prelude.code.inj hcode
        rfl
    · obtain ⟨_, rfl, rfl⟩ := Prelude.code.inj hcode
      rfl

theorem codeOn_of_preludeOf {pending pending' : Pending} {lead rest line : Text} {following : List Text}
    (hcode : grammar.preludeOf pending line following = .code pending' lead rest) :
    grammar.codeOn line = (lead, rest) := by
  simp only [preludeOf] at hcode
  split at hcode
  · simp at hcode
  · split at hcode
    · next hblock =>
      split at hcode
      · next hafter =>
        rw [preludeOfCode_eq_code hcode, codeOn, if_pos hblock, hafter, Option.getD_some]
      · simp at hcode
    · next hblock =>
      split at hcode
      · simp at hcode
      · rw [preludeOfCode_eq_code hcode, codeOn, if_neg hblock]

/-- A line that a rule accepts declares what its code declares. -/
theorem headingOn?_of_heads {carry skipped : Carry} {line : Text} {rest : List Text} {heading : Heading}
    {attrs : Text} {pending : Pending}
    (hrole : grammar.roleOf carry line rest = .heads heading attrs pending skipped) :
    grammar.headingOn? line = some heading := by
  unfold roleOf at hrole
  split at hrole
  · simp at hrole
  · split at hrole
    · simp at hrole
    · simp at hrole
    · next hcode =>
      dsimp only at hrole
      split at hrole
      · simp at hrole
      · next hheading =>
        obtain ⟨rfl, _⟩ := LineRole.heads.inj hrole
        simp only [headingOn?, codeOn_of_preludeOf hcode, hheading]

end Heading

/-- The interior of a declaration is a window of the lines of the text. -/
theorem interior_eq_windowOf {lines : List Text} {first last : Nat} {extent : Extent} {line : Text}
    {rest : List Text}
    (hwindow : windowOf lines first last = line :: rest) (hstart : first ≤ extent.headerEnd)
    (hlast : extent.last ≤ last) :
    grammar.interior first extent rest =
      windowOf lines (extent.headerEnd + 1) (grammar.interiorLast extent) := by
  have hrest : rest = windowOf lines (first + 1) last := by
    rw [← drop_windowOf, hwindow, List.drop_succ_cons, List.drop_zero]
  have hplace : first + 1 + (extent.headerEnd - first) = extent.headerEnd + 1 := by omega
  have hinterior := interiorLast_le grammar extent
  have hcount : min (grammar.interiorLast extent - extent.headerEnd) (last + 1 - (extent.headerEnd + 1)) =
      grammar.interiorLast extent + 1 - (extent.headerEnd + 1) := by omega
  rw [interior, hrest, drop_windowOf, hplace, windowOf, windowOf, List.take_take, hcount]

/-- Every declaration of a scan with room begins on a line with a heading; it ends where the extent of the
heading does, and its children are what stands inside the extent. What is guessed inside it is among the
guesses of the scan. -/
theorem of_mem_scanLines (window : List Text) {depth index : Nat} {carry : Carry} {progress : Progress}
    (hroom : limits.LeaveRoom depth progress window) {d : Declaration}
    (hmem : d ∈ (grammar.scanLines limits depth index carry progress window).1) :
    ∃ (before : Nat) (line : Text) (rest : List Text) (heading : Heading) (declared : Declaration)
      (noted : Progress) (extent : Extent),
      d.startLine = index + before + 1 ∧ window.drop before = line :: rest ∧
      grammar.headingOn? line = some heading ∧
      grammar.extent limits heading.rule.body (index + before) (line :: rest) = extent ∧
      limits.LeaveRoom depth noted (line :: rest) ∧ d.kind = heading.rule.kind ∧
      d.endLine = extent.last + 1 ∧
      d.children = (grammar.scanInside limits depth (index + before) heading extent declared noted rest).1 ∧
      (grammar.scanInside limits depth (index + before) heading extent declared noted rest).2.guesses <+:
        (grammar.scanLines limits depth index carry progress window).2.guesses := by
  induction window using window_induction generalizing index carry progress with
  | nil =>
    rw [scanLines_nil] at hmem
    simp at hmem
  | cons line rest ih =>
    cases hrole : grammar.roleOf carry line rest with
    | passed further carried =>
      rw [scanLines_passed hroom.running hrole] at hmem ⊢
      obtain ⟨before, found⟩ := ih _ (by rw [List.length_drop]; omega) (hroom.drop further) hmem
      refine ⟨further + before + 1, ?_⟩
      have hplace : index + 1 + further + before = index + (further + before + 1) := by omega
      rw [hplace, List.drop_drop] at found
      exact found
    | heads heading attrs pending skipped =>
      obtain ⟨extent, hextent⟩ : ∃ extent, grammar.extent limits heading.rule.body index (line :: rest) =
        extent := ⟨_, rfl⟩
      have hnoted := hroom.noteExtent index heading extent
      by_cases hblank : (Text.trim heading.name).isEmpty = true
      · rw [scanLines_rejected hroom.running hrole hroom.emitted_lt hextent hblank] at hmem ⊢
        obtain ⟨before, found⟩ := ih rest (Nat.le_refl _) (hnoted.drop 0) hmem
        refine ⟨before + 1, ?_⟩
        rw [Nat.add_right_comm index 1 before] at found
        exact found
      · obtain ⟨declared, hdeclared⟩ := exists_declaration hblank
        rw [scanLines_opening hroom.running hrole hroom.emitted_lt hextent hdeclared] at hmem ⊢
        obtain ⟨hstart, hheader, hlast⟩ :=
          hextent ▸ grammar.extent_bounds limits heading.rule.body index line rest
        rcases List.mem_cons.1 hmem with rfl | hmem
        · obtain ⟨hkind, hstartLine, hendLine, _⟩ := of_declaration?_eq_some hdeclared (by omega)
          have hlater := (scanLines_advances grammar limits (rest.drop (extent.last - index)) depth
            (extent.last + 1) .start (grammar.scanInside limits depth index heading extent declared
              (progress.noteExtent index heading extent) rest).2).guesses_grow
          exact ⟨0, line, rest, heading, declared, _, extent, hstartLine, rfl, headingOn?_of_heads hrole,
            hextent, hnoted, hkind, hendLine, rfl, hlater⟩
        · have hafter := leaveRoom_after grammar hnoted hlast hstart hheader heading declared
          obtain ⟨before, found⟩ := ih _ (by rw [List.length_drop]; omega) hafter hmem
          refine ⟨extent.last - index + before + 1, ?_⟩
          have hplace : extent.last + 1 + before = index + (extent.last - index + before + 1) := by omega
          rw [hplace, List.drop_drop] at found
          exact found

section Law

/-- The extent that a scan up to line `last` gives to what line `start` declares. -/
def extentOn? (grammar : Grammar) (limits : Limits) (lines : List Text) (start last : Nat) : Option Extent :=
  lines[start]?.bind fun line => (grammar.headingOn? line).map fun heading =>
    grammar.extent limits heading.rule.body start (windowOf lines start last)

/-- The extents of the declarations of an outline. A declaration of the text is searched for its end up to
the last line, and one inside another up to the last line of the interior. -/
inductive Reaches (grammar : Grammar) (limits : Limits) (t : Text) (outline : List Declaration) :
    Declaration → Extent → Prop where
  | top {d : Declaration} {extent : Extent} (hmem : d ∈ outline)
      (hextent : grammar.extentOn? limits (Text.lines t) (d.startLine - 1) ((Text.lines t).length - 1) =
        some extent) : Reaches grammar limits t outline d extent
  | inside {parent d : Declaration} {outer extent : Extent}
      (hparent : Reaches grammar limits t outline parent outer) (hmem : d ∈ parent.children)
      (hextent : grammar.extentOn? limits (Text.lines t) (d.startLine - 1) (grammar.interiorLast outer) =
        some extent) : Reaches grammar limits t outline d extent

/-- Every declaration of the outline has an extent, and the children of a container are the outline of the
lines inside it as a text of its own, moved to their place. The scan of these lines returns. -/
structure InteriorsStandAlone (grammar : Grammar) (limits : Limits) (t : Text)
    (outline : List Declaration) : Prop where
  reaches : ∀ d ∈ Declaration.walkAll outline,
    ∃ extent, Reaches grammar limits t outline d extent ∧ d.endLine = extent.last + 1
  children_eq : ∀ d extent, Reaches grammar limits t outline d extent → d.kind.isContainer = true →
    extent.hasInterior = true →
      ∃ inner, grammar.scan? limits
          (Text.lineRange (extent.headerEnd + 1) (grammar.interiorLast extent) t) = some inner ∧
        d.children = Declaration.shiftAll (extent.headerEnd + 1) inner.1

/-- A scan of lines `first` to `last` in their place returns exactly when the scan of these lines as a text
of their own does, and finds the same, moved to their place. The depth and what was counted before leave
room for the lines, and what was guessed before has not broken the scan down. -/
def WindowsStandAlone (grammar : Grammar) (limits : Limits) (t : Text) : Prop :=
  ∀ (depth first last : Nat) (progress : Progress),
    limits.LeaveRoom depth progress (windowOf (Text.lines t) first last) →
    (∀ line ∈ progress.guesses, line + limits.fallbackSpan < UInt64.size) →
      (grammar.scanLines? limits depth first .start progress (windowOf (Text.lines t) first last)).map
          Prod.fst =
        (grammar.scan? limits (Text.lineRange first last t)).map fun found =>
          Declaration.shiftAll first found.1

/-- What is known of a declaration found in a window of the lines, and of what stands inside it. -/
theorem of_mem_scan_windowOf {lines : List Text} {depth first last : Nat} {carry : Carry}
    {progress : Progress} (hroom : limits.LeaveRoom depth progress (windowOf lines first last))
    {d : Declaration}
    (hmem : d ∈ (grammar.scanLines limits depth first carry progress (windowOf lines first last)).1) :
    ∃ extent, grammar.extentOn? limits lines (d.startLine - 1) last = some extent ∧
      d.endLine = extent.last + 1 ∧ extent.headerEnd ≤ extent.last ∧ extent.last < lines.length ∧
      (((d.kind.isContainer && extent.hasInterior) = false ∧ d.children = []) ∨
      ((d.kind.isContainer && extent.hasInterior) = true ∧ ∃ inner,
        limits.LeaveRoom (depth + 1) inner
          (windowOf lines (extent.headerEnd + 1) (grammar.interiorLast extent)) ∧
        d.children = (grammar.scanLines limits (depth + 1) (extent.headerEnd + 1) .start inner
          (windowOf lines (extent.headerEnd + 1) (grammar.interiorLast extent))).1 ∧
        (grammar.scanLines limits (depth + 1) (extent.headerEnd + 1) .start inner
          (windowOf lines (extent.headerEnd + 1) (grammar.interiorLast extent))).2.guesses <+:
            (grammar.scanLines limits depth first carry progress (windowOf lines first last)).2.guesses)) := by
  obtain ⟨before, line, rest, heading, declared, noted, extent, hstartLine, hdrop, hheading, hextent, hnoted,
    hkind, hendLine, hchildren, hguesses⟩ := of_mem_scanLines _ hroom hmem
  obtain ⟨hstart, hheader, hlast⟩ :=
    hextent ▸ grammar.extent_bounds limits heading.rule.body (first + before) line rest
  have hindex : d.startLine - 1 = first + before := by omega
  have hwindow : windowOf lines (first + before) last = line :: rest := by rw [← drop_windowOf, hdrop]
  obtain ⟨hcount, hcount'⟩ := hwindow ▸ length_windowOf_le lines (first + before) last
  rw [List.length_cons] at hcount hcount'
  refine ⟨extent, ?_, hendLine, hheader, by omega, ?_⟩
  · rw [hindex, extentOn?, getElem?_of_windowOf hwindow, hwindow, Option.bind_some, hheading, Option.map_some,
      hextent]
  · rw [hkind, hchildren, ← interior_eq_windowOf hwindow hstart (by omega)]
    rcases scanInside_cases_of_room grammar hnoted hlast hstart heading declared with
      ⟨hclosed, hinside⟩ | ⟨hopen, hinner, hinside⟩
    · exact .inl ⟨hclosed, by rw [hinside]⟩
    · rw [hinside] at hguesses
      exact .inr ⟨hopen, _, hinner, by rw [hinside], hguesses⟩

/-- A declaration with an extent was found in a window of the lines, with room, by a part of the scan of the
text. -/
theorem exists_scan_of_reaches {t : Text} (hdepth : (Text.lines t).length < limits.maxDepth)
    (hcount : (Text.lines t).length < limits.maxDeclarations) {d : Declaration} {extent : Extent}
    (hreaches : Reaches grammar limits t (grammar.scan limits t).1 d extent) :
    ∃ depth first last progress,
      limits.LeaveRoom depth progress (windowOf (Text.lines t) first last) ∧
      d ∈ (grammar.scanLines limits depth first .start progress (windowOf (Text.lines t) first last)).1 ∧
      grammar.extentOn? limits (Text.lines t) (d.startLine - 1) last = some extent ∧
      (grammar.scanLines limits depth first .start progress
        (windowOf (Text.lines t) first last)).2.guesses <+:
          (grammar.scanLines limits 0 0 .start .start (Text.lines t)).2.guesses := by
  induction hreaches with
  | top hmem hextent =>
    refine ⟨0, 0, _, .start, ?_, ?_, hextent, ?_⟩ <;> simp only [windowOf_all]
    · exact .start (Nat.le_of_lt hdepth) (Nat.le_of_lt hcount)
    · exact hmem
    · exact List.prefix_rfl
  | inside _ hmem hextent ih =>
    obtain ⟨depth, first, last, progress, hroom, hparent, houter, hwhole⟩ := ih
    obtain ⟨outer, houter', _, _, _, ⟨_, hchildren⟩ | ⟨_, inner, hinner, hchildren, hguesses⟩⟩ :=
      of_mem_scan_windowOf hroom hparent
    · rw [hchildren] at hmem
      simp at hmem
    · obtain rfl := Option.some.inj (houter'.symm.trans houter)
      rw [hchildren] at hmem
      exact ⟨depth + 1, _, _, inner, hinner, hmem, hextent, hguesses.trans hwhole⟩

/-- If the declarations that a scan with room finds in a window have their extents, so have all inside them. -/
theorem reaches_of_scan (grammar : Grammar) {t : Text} {outline : List Declaration} (levels : Nat)
    {depth first last : Nat} {progress : Progress} (hlevels : limits.maxDepth ≤ depth + levels)
    (hroom : limits.LeaveRoom depth progress (windowOf (Text.lines t) first last))
    (htop : ∀ d ∈ (grammar.scanLines limits depth first .start progress
      (windowOf (Text.lines t) first last)).1, ∀ extent,
      grammar.extentOn? limits (Text.lines t) (d.startLine - 1) last = some extent →
        Reaches grammar limits t outline d extent) :
    ∀ d ∈ Declaration.walkAll (grammar.scanLines limits depth first .start progress
      (windowOf (Text.lines t) first last)).1,
      ∃ extent, Reaches grammar limits t outline d extent ∧ d.endLine = extent.last + 1 := by
  -- A window with room is empty once no level is left, and each step inside takes one.
  induction levels generalizing depth first last progress with
  | zero =>
    intro d hmem
    have hdepth := hroom.depth_le
    have hnone : (windowOf (Text.lines t) first last).length = 0 := by omega
    rw [List.eq_nil_of_length_eq_zero hnone, scanLines_nil] at hmem
    simp [Declaration.walkAll] at hmem
  | succ levels ih =>
    intro d hmem
    obtain ⟨parent, hparent, hwithin⟩ := Declaration.exists_of_mem_walkAll hmem
    obtain ⟨extent, hextent, hendLine, _, _, hinside⟩ := of_mem_scan_windowOf hroom hparent
    have hreaches := htop parent hparent extent hextent
    rcases hwithin with rfl | hwithin
    · exact ⟨extent, hreaches, hendLine⟩
    rcases hinside with ⟨_, hchildren⟩ | ⟨_, inner, hinner, hchildren, _⟩
    · simp [hchildren, Declaration.walkAll] at hwithin
    · rw [hchildren] at hwithin
      refine ih (by omega) hinner (fun child hchild extent' hextent' => ?_) d hwithin
      rw [← hchildren] at hchild
      exact .inside hreaches hchild hextent'

/-- A scan of a window with room finds what a scan of its lines as a text of their own finds. -/
theorem displaced_lineRange (grammar : Grammar) {t : Text} {depth first last : Nat} {progress : Progress}
    (hroom : limits.LeaveRoom depth progress (windowOf (Text.lines t) first last)) :
    Displaced first progress .start
      (grammar.scanLines limits depth first .start progress (windowOf (Text.lines t) first last))
      (grammar.scanLines limits 0 0 .start .start (Text.lines (Text.lineRange first last t))) := by
  have hmoved : Displaced first progress .start
      (grammar.scanLines limits depth (0 + first) .start progress (windowOf (Text.lines t) first last))
      (grammar.scanLines limits 0 0 .start .start (windowOf (Text.lines t) first last)) :=
    scanLines_displaced _ hroom hroom.alone
  rw [Nat.zero_add] at hmoved
  rwa [Text.lines_lineRange]

/-- A scan of lines as a text of their own returns, if the same lines further down do not break a scan. -/
theorem scan?_of_displaced {t : Text} {k : Nat} {progress : Progress} {moved : List Declaration × Progress}
    (hmoved : Displaced k progress .start moved (grammar.scanLines limits 0 0 .start .start (Text.lines t)))
    (hfits : ∀ line ∈ moved.2.guesses, line + limits.fallbackSpan < UInt64.size) :
    grammar.scan? limits t = some (grammar.scan limits t) := by
  obtain ⟨lines, hfar, hplace⟩ := hmoved.guessAlike
  refine scan?_eq_some_iff.2 ⟨rfl, fun line hmem => ?_⟩
  rw [hplace, Progress.start, List.nil_append] at hmem
  have hguess : line + k ∈ moved.2.guesses := by
    rw [hfar]
    exact List.mem_append_right _ (List.mem_map_of_mem hmem)
  have hsum := hfits (line + k) hguess
  omega

/-- Where a scan returns, every interior stands alone, whatever the span of the guesses is. -/
theorem interiorsStandAlone {t : Text} (hdepth : (Text.lines t).length < limits.maxDepth)
    (hcount : (Text.lines t).length < limits.maxDeclarations) {found : List Declaration × List String}
    (hfound : grammar.scan? limits t = some found) : grammar.InteriorsStandAlone limits t found.1 := by
  obtain ⟨rfl, hfits⟩ := scan?_eq_some_iff.1 hfound
  refine ⟨?_, ?_⟩
  · have hroom : limits.LeaveRoom 0 .start (windowOf (Text.lines t) 0 ((Text.lines t).length - 1)) := by
      rw [windowOf_all]
      exact .start (Nat.le_of_lt hdepth) (Nat.le_of_lt hcount)
    have hall := reaches_of_scan grammar limits.maxDepth (Nat.le_add_left _ 0) hroom
      (fun d hmem extent hextent => .top (by rwa [windowOf_all] at hmem) hextent)
    rwa [windowOf_all] at hall
  · intro d extent hreaches hcontainer hinterior
    obtain ⟨depth, first, last, progress, hroom, hmem, hextent, hwhole⟩ :=
      exists_scan_of_reaches hdepth hcount hreaches
    obtain ⟨extent', hextent', _, _, _, ⟨hclosed, _⟩ | ⟨_, inner, hinner, hchildren, hguesses⟩⟩ :=
      of_mem_scan_windowOf hroom hmem
    all_goals obtain rfl := Option.some.inj (hextent'.symm.trans hextent)
    · simp [hcontainer, hinterior] at hclosed
    · have hmoved := displaced_lineRange grammar hinner
      have hinside := scan?_of_displaced hmoved
        fun line hguess => hfits line (hwhole.subset (hguesses.subset hguess))
      exact ⟨_, hinside, hchildren.trans hmoved.declarations_eq⟩

/-- Where every sum of a line and the span is a word, every window stands alone. -/
theorem windowsStandAlone_of_fits (grammar : Grammar) {t : Text}
    (hfits : (Text.lines t).length + limits.fallbackSpan ≤ UInt64.size) :
    grammar.WindowsStandAlone limits t := by
  intro depth first last progress hroom hearlier
  have hmoved := displaced_lineRange grammar hroom
  obtain ⟨hlength, hlength'⟩ := length_windowOf_le (Text.lines t) first last
  have hplaced : grammar.scanLines? limits depth first .start progress (windowOf (Text.lines t) first last) =
      some (grammar.scanLines limits depth first .start progress (windowOf (Text.lines t) first last)) := by
    by_cases hsome : windowOf (Text.lines t) first last = []
    · rw [hsome]
      refine scanLines?_eq_some_iff.2 ⟨rfl, ?_⟩
      rwa [scanLines_nil]
    · have hpos := List.length_pos_iff.2 hsome
      exact scanLines?_of_fits hearlier (by omega)
  have halone := scan?_of_displaced hmoved (scanLines?_eq_some_iff.1 hplaced).2
  rw [hplaced, halone, Option.map_some, Option.map_some, hmoved.declarations_eq]
  rfl

end Law

end Grammar

end Outline
