import Outline.Proofs.Lexing.Pass
import Outline.Proofs.Scan.Budget

namespace Outline

theorem LexState.eq_code_of_inCode {state : LexState} (hcode : state.inCode = true) : state = .code := by
  cases state with
  | code => rfl
  | comment => exact Bool.noConfusion hcode
  | literal => exact Bool.noConfusion hcode

namespace Grammar

section Roles

variable {grammar : Grammar} {carry carried : Carry} {line : Text} {rest : List Text} {further : Nat}

theorem lex_of_not_isInside (hinside : ¬ carry.isInside = true) : carry.lex = .code := by
  simp only [Carry.isInside, Bool.or_eq_true, not_or, Bool.not_eq_true', Bool.not_eq_false] at hinside
  exact LexState.eq_code_of_inCode hinside.1

theorem lex_of_heads {heading : Heading} {attrs : Text} {pending : Pending} {skipped : Carry}
    (hrole : grammar.roleOf carry line rest = .heads heading attrs pending skipped) : carry.lex = .code := by
  refine lex_of_not_isInside fun hinside => ?_
  rw [roleOf, if_pos hinside] at hrole
  exact LineRole.noConfusion hrole

theorem preludeOfCode_ne_blank (pending : Pending) (lead code line : Text) (following : List Text) :
    ¬ grammar.preludeOfCode pending lead code line following = .blank := by
  intro hblank
  simp only [preludeOfCode] at hblank
  split at hblank
  · exact Prelude.noConfusion hblank
  · split at hblank
    · split at hblank <;> exact Prelude.noConfusion hblank
    · exact Prelude.noConfusion hblank

theorem trim_of_preludeOf_blank {pending : Pending} (hprelude : grammar.preludeOf pending line rest = .blank) :
    (Text.trim line).isEmpty = true := by
  unfold preludeOf at hprelude
  dsimp only at hprelude
  split at hprelude
  · assumption
  · split at hprelude
    · split at hprelude
      · exact absurd hprelude (preludeOfCode_ne_blank _ _ _ _ _)
      · exact Prelude.noConfusion hprelude
    · split at hprelude
      · exact Prelude.noConfusion hprelude
      · exact absurd hprelude (preludeOfCode_ne_blank _ _ _ _ _)

/-- A line is passed over by reading it, because it is blank, or as documentation or an attribute. -/
theorem roleOf_passed_cases (hrole : grammar.roleOf carry line rest = .passed further carried) :
    (further = 0 ∧ carried.lex = (grammar.lexicon.readLine carry.lex line).state) ∨
    (further = 0 ∧ carry.lex = .code ∧ carried.lex = .code ∧ (Text.trim line).isEmpty = true) ∨
    (carry.lex = .code ∧ carried.lex = .code ∧
      ∃ waiting, grammar.preludeOf carry.pending line rest = .absorbed waiting further) := by
  by_cases hinside : carry.isInside = true
  · rw [roleOf, if_pos hinside] at hrole
    obtain ⟨rfl, rfl⟩ := LineRole.passed.inj hrole
    exact .inl ⟨rfl, rfl⟩
  have hlex := lex_of_not_isInside hinside
  rw [roleOf, if_neg hinside] at hrole
  cases hprelude : grammar.preludeOf carry.pending line rest with
  | blank =>
    rw [hprelude] at hrole
    obtain ⟨rfl, rfl⟩ := LineRole.passed.inj hrole
    exact .inr (.inl ⟨rfl, hlex, hlex, trim_of_preludeOf_blank hprelude⟩)
  | absorbed waiting taken =>
    rw [hprelude] at hrole
    obtain ⟨rfl, rfl⟩ := LineRole.passed.inj hrole
    exact .inr (.inr ⟨hlex, hlex, waiting, rfl⟩)
  | code waiting lead code =>
    rw [hprelude] at hrole
    dsimp only at hrole
    split at hrole
    · obtain ⟨rfl, rfl⟩ := LineRole.passed.inj hrole
      exact .inl ⟨rfl, rfl⟩
    · exact LineRole.noConfusion hrole

end Roles

/-- The lines from `first` up to `next` that a scan with the given outline may leave unread. -/
inductive Skips (grammar : Grammar) (limits : Limits) (lines : List Text) (outline : List Declaration) :
    (first next : Nat) → Prop
  /-- Documentation or an attribute, with the lines it takes. -/
  | absorbed {first further : Nat} {line : Text} {rest : List Text} {pending waiting : Pending}
      (hwindow : line :: rest <+: lines.drop first)
      (hprelude : grammar.preludeOf pending line rest = .absorbed waiting further) :
      Skips grammar limits lines outline first (first + 1 + further)
  /-- A declaration. -/
  | declared {first next : Nat} {d : Declaration} (hmem : d ∈ outline) (hstart : d.startLine = first + 1)
      (hends : d.endLine = next) : Skips grammar limits lines outline first next
  /-- The head of a declaration, up to the line where its body opens. -/
  | head {first : Nat} {d : Declaration} {line : Text} {rest : List Text} {heading : Heading} {extent : Extent}
      (hmem : d ∈ outline) (hstart : d.startLine = first + 1) (hwindow : line :: rest <+: lines.drop first)
      (hheading : grammar.headingOn? line = some heading)
      (hextent : grammar.extent limits heading.rule.body first (line :: rest) = extent)
      (hends : d.endLine = extent.last + 1) : Skips grammar limits lines outline first (extent.headerEnd + 1)

/-- Lines before `index` that were left unread begin in code and end in a comment or a literal. -/
def Misled (grammar : Grammar) (limits : Limits) (lines : List Text) (outline : List Declaration)
    (index : Nat) : Prop :=
  ∃ first next, first < next ∧ next ≤ index ∧ grammar.Skips limits lines outline first next ∧
    (grammar.lexicon.stateAt lines first).inCode = true ∧ (grammar.lexicon.stateAt lines next).inCode = false

/-- A state is the one in which the line begins, unless lines before it have misled the scan. -/
def Tracks (grammar : Grammar) (limits : Limits) (lines : List Text) (outline : List Declaration)
    (state : LexState) (index : Nat) : Prop :=
  state = grammar.lexicon.stateAt lines index ∨ grammar.Misled limits lines outline index

section Tracks

variable {grammar : Grammar} {limits : Limits} {lines : List Text} {outline : List Declaration}
  {state : LexState} {index next : Nat} {line : Text} {rest : List Text}

theorem Misled.mono (h : grammar.Misled limits lines outline index) (hle : index ≤ next) :
    grammar.Misled limits lines outline next := by
  obtain ⟨first, last, hlt, hlast, hskips⟩ := h
  exact ⟨first, last, hlt, Nat.le_trans hlast hle, hskips⟩

theorem Tracks.read (h : grammar.Tracks limits lines outline state index)
    (hline : line :: rest <+: lines.drop index) :
    grammar.Tracks limits lines outline (grammar.lexicon.readLine state line).state (index + 1) := by
  obtain ⟨behind, hbehind⟩ := hline
  rcases h with rfl | hmisled
  · exact .inl (grammar.lexicon.stateAt_succ hbehind.symm).symm
  · exact .inr (hmisled.mono (Nat.le_succ _))

theorem Tracks.blank (hvisible : grammar.lexicon.opensVisibly = true)
    (h : grammar.Tracks limits lines outline .code index) (hline : line :: rest <+: lines.drop index)
    (hblank : (Text.trim line).isEmpty = true) : grammar.Tracks limits lines outline .code (index + 1) := by
  have hread := h.read hline
  rwa [Lexicon.state_readLine_blank hvisible hblank] at hread

theorem Tracks.skip (h : grammar.Tracks limits lines outline .code index) (hlt : index < next)
    (hskips : grammar.Skips limits lines outline index next) : grammar.Tracks limits lines outline .code next := by
  rcases h with hcode | hmisled
  · cases hnext : (grammar.lexicon.stateAt lines next).inCode with
    | true => exact .inl (LexState.eq_code_of_inCode hnext).symm
    | false => exact .inr ⟨index, next, hlt, Nat.le_refl _, hskips, by rw [← hcode]; rfl, hnext⟩
  · exact .inr (hmisled.mono (Nat.le_of_lt hlt))

end Tracks

section Run

variable {grammar : Grammar} {limits : Limits} {lines : List Text} {outline : List Declaration} {index : Nat}
  {carry : Carry} {line : Text} {rest : List Text}

theorem drop_prefix_lines (hwindow : line :: rest <+: lines.drop index) (further : Nat) :
    rest.drop further <+: lines.drop (index + 1 + further) := by
  obtain ⟨behind, hbehind⟩ := hwindow
  have hdrop : lines.drop (index + 1 + further) = rest.drop further ++ behind.drop (further - rest.length) := by
    rw [← List.drop_append, Nat.add_assoc, ← List.drop_drop, ← hbehind, List.cons_append, Nat.add_comm,
      List.drop_succ_cons]
  rw [hdrop]
  exact List.prefix_append _ _

theorem interior_prefix_lines {extent : Extent} (hwindow : line :: rest <+: lines.drop index)
    (hhead : index ≤ extent.headerEnd) :
    grammar.interior index extent rest <+: lines.drop (extent.headerEnd + 1) := by
  have hplace : index + 1 + (extent.headerEnd - index) = extent.headerEnd + 1 := by omega
  have hdrop := drop_prefix_lines hwindow (extent.headerEnd - index)
  rw [hplace] at hdrop
  exact (List.take_prefix _ _).trans hdrop

/-- A line that is passed over leaves the scan on track, or misled. -/
theorem Tracks.passed {further : Nat} {carried : Carry} (hvisible : grammar.lexicon.opensVisibly = true)
    (h : grammar.Tracks limits lines outline carry.lex index) (hwindow : line :: rest <+: lines.drop index)
    (hrole : grammar.roleOf carry line rest = .passed further carried) :
    grammar.Tracks limits lines outline carried.lex (index + 1 + further) := by
  rcases roleOf_passed_cases hrole with ⟨rfl, hcarried⟩ | ⟨rfl, hlex, hcarried, hblank⟩ |
    ⟨hlex, hcarried, waiting, hprelude⟩
  · rw [hcarried]
    exact h.read hwindow
  · rw [hlex] at h
    rw [hcarried]
    exact h.blank hvisible hwindow hblank
  · rw [hlex] at h
    rw [hcarried]
    exact h.skip (by omega) (.absorbed hwindow hprelude)

/-- What stands inside a declaration is on track if the scan of its interior is. -/
theorem scanInside_tracks {depth : Nat} {heading : Heading} {extent : Extent} {declared : Declaration}
    {noted : Progress}
    (hscan : (∀ d ∈ Declaration.walkAll (grammar.scanLines limits (depth + 1) (extent.headerEnd + 1) .start
          noted.emit (grammar.interior index extent rest)).1, d ∈ outline) →
      ∀ d ∈ Declaration.walkAll (grammar.scanLines limits (depth + 1) (extent.headerEnd + 1) .start noted.emit
          (grammar.interior index extent rest)).1, grammar.Tracks limits lines outline .code (d.startLine - 1))
    (hfound : ∀ d ∈ Declaration.walkAll (grammar.scanInside limits depth index heading extent declared noted
      rest).1, d ∈ outline) :
    ∀ d ∈ Declaration.walkAll (grammar.scanInside limits depth index heading extent declared noted rest).1,
      grammar.Tracks limits lines outline .code (d.startLine - 1) := by
  rcases scanInside_cases grammar limits depth index heading extent declared noted rest with
    ⟨_, hinside⟩ | ⟨_, _, hinside⟩ | ⟨_, _, hinside⟩
  · rw [hinside]
    simp [Declaration.walkAll]
  · rw [hinside]
    simp [Declaration.walkAll]
  · rw [hinside] at hfound ⊢
    exact hscan hfound

/-- A declaration in a scan of a window begins in code, or the scan is misled before it. -/
theorem scanLines_tracks (hnames : grammar.NamesVisible) (hvisible : grammar.lexicon.opensVisibly = true)
    (limits : Limits) {lines : List Text} {outline : List Declaration} (window : List Text) (depth index : Nat)
    (carry : Carry) (progress : Progress) (hwindow : window <+: lines.drop index)
    (hfound : ∀ d ∈ Declaration.walkAll (grammar.scanLines limits depth index carry progress window).1,
      d ∈ outline)
    (htracks : grammar.Tracks limits lines outline carry.lex index) :
    ∀ d ∈ Declaration.walkAll (grammar.scanLines limits depth index carry progress window).1,
      grammar.Tracks limits lines outline .code (d.startLine - 1) := by
  induction window using window_induction generalizing depth index carry progress with
  | nil =>
    rw [scanLines_nil]
    simp [Declaration.walkAll]
  | cons line rest ih =>
    by_cases hstopped : progress.exhausted = true
    · rw [scanLines_exhausted hstopped]
      simp [Declaration.walkAll]
    have hrunning : progress.exhausted = false := by simpa using hstopped
    cases hrole : grammar.roleOf carry line rest with
    | passed further carried =>
      rw [scanLines_passed hrunning hrole] at hfound ⊢
      exact ih _ (by rw [List.length_drop]; omega) _ _ _ _ (drop_prefix_lines hwindow further) hfound
        (htracks.passed hvisible hwindow hrole)
    | heads heading attrs pending skipped =>
      by_cases hfull : limits.maxDeclarations ≤ progress.emitted
      · rw [scanLines_full hrunning hrole hfull]
        simp [Declaration.walkAll]
      obtain ⟨extent, hextent⟩ : ∃ extent, grammar.extent limits heading.rule.body index (line :: rest) =
        extent := ⟨_, rfl⟩
      obtain ⟨declared, hdeclared⟩ := hnames.exists_declaration hrole index extent
      obtain ⟨hstart, hheader, _⟩ := hextent ▸ grammar.extent_bounds limits heading.rule.body index line rest
      obtain ⟨_, hstartLine, hendLine, _⟩ := of_declaration?_eq_some hdeclared (by omega)
      rw [scanLines_opening hrunning hrole (Nat.not_le.1 hfull) hextent hdeclared] at hfound ⊢
      rw [Declaration.walkAll_cons] at hfound ⊢
      rw [lex_of_heads hrole] at htracks
      have hself := hfound _ List.mem_cons_self
      -- neither the head nor the rest of the declaration is read: both are jumps from its first line
      have hhead : grammar.Tracks limits lines outline .code (extent.headerEnd + 1) :=
        htracks.skip (by omega) (.head hself hstartLine hwindow (headingOn?_of_heads hrole) hextent hendLine)
      have hbehind : grammar.Tracks limits lines outline .code (extent.last + 1) :=
        htracks.skip (by omega) (.declared hself hstartLine hendLine)
      intro d hmem
      rcases List.mem_cons.1 hmem with rfl | hmem
      · change grammar.Tracks limits lines outline .code (declared.startLine - 1)
        rwa [hstartLine]
      rcases List.mem_append.1 hmem with hmem | hmem
      · refine scanInside_tracks (fun hfound => ?_) (fun d hmem => ?_) d hmem
        · exact ih _ (length_interior_le grammar index extent rest).2 _ _ _ _
            (interior_prefix_lines hwindow hstart) hfound hhead
        · exact hfound d (List.mem_cons_of_mem _ (List.mem_append_left _ hmem))
      · have hplace : index + 1 + (extent.last - index) = extent.last + 1 := by omega
        have hlines := drop_prefix_lines hwindow (extent.last - index)
        rw [hplace] at hlines
        refine ih _ (by rw [List.length_drop]; omega) _ _ _ _ hlines (fun d hmem => ?_) hbehind d hmem
        exact hfound d (List.mem_cons_of_mem _ (List.mem_append_right _ hmem))

end Run

/-- In every language, a declaration begins on a line that one pass over the text finds in code, unless a
declaration, the head of one, documentation or an attribute before it begins in code and ends in a comment or a
literal. A scan does not read such lines and takes them to end in code. -/
theorem startsInCode_or_misled (language : Language) (limits : Limits) (t : Text) :
    ∀ d ∈ Declaration.walkAll (language.grammar.scan limits t).1,
      (language.grammar.lexicon.stateAt (Text.lines t) (d.startLine - 1)).inCode = true ∨
        language.grammar.Misled limits (Text.lines t)
          (Declaration.walkAll (language.grammar.scan limits t).1) (d.startLine - 1) := by
  intro d hmem
  have hstart : language.grammar.Tracks limits (Text.lines t)
      (Declaration.walkAll (language.grammar.scan limits t).1) LexState.code 0 :=
    .inl (Lexicon.stateAt_zero _).symm
  have hwindow : Text.lines t <+: (Text.lines t).drop 0 := List.prefix_rfl
  rcases scanLines_tracks (namesVisible language) language.opensVisibly_lexicon limits (Text.lines t) 0 0 .start
    .start hwindow (fun d hmem => hmem) hstart d hmem with hcode | hmisled
  · rw [← hcode]
    exact .inl rfl
  · exact .inr hmisled

section Comment

/-- A function with a comment behind it that goes on over another function. -/
def openComment : Text := "fn f() \x7b\x7d /*\nfn g() \x7b\x7d\n*/\n".toList

theorem exists_in_openComment : ∃ d ∈ Declaration.walkAll (rust.scan {} openComment).1, d.startLine = 2 := by
  have hstarts : 2 ∈ (Declaration.walkAll (rust.scan {} openComment).1).map Declaration.startLine := by
    decide +kernel
  exact List.mem_map.1 hstarts

theorem inCode_openComment : (rust.lexicon.stateAt (Text.lines openComment) 1).inCode = false := by
  decide +kernel

/-- The second function is found on a line of the comment, since the first one has misled the scan. -/
theorem startsInCode_or_misled_openComment :
    ∃ d ∈ Declaration.walkAll (rust.scan {} openComment).1, d.startLine = 2 ∧
      rust.Misled {} (Text.lines openComment) (Declaration.walkAll (rust.scan {} openComment).1) 1 := by
  obtain ⟨d, hmem, hstart⟩ := exists_in_openComment
  have hmisled := startsInCode_or_misled .rust {} openComment d hmem
  rw [hstart] at hmisled
  rcases hmisled with hcode | hmisled
  · exact absurd (hcode.symm.trans inCode_openComment) Bool.noConfusion
  · exact ⟨d, hmem, hstart, hmisled⟩

/-- Every declaration of the outline begins on a line that one pass over the text finds in code. -/
def StartsInCode (grammar : Grammar) (limits : Limits) (t : Text) : Prop :=
  ∀ d ∈ Declaration.walkAll (grammar.scan limits t).1,
    (grammar.lexicon.stateAt (Text.lines t) (d.startLine - 1)).inCode = true

/-- Not every declaration begins in code. -/
theorem not_startsInCode_openComment : ¬ rust.StartsInCode {} openComment := by
  obtain ⟨d, hmem, hstart⟩ := exists_in_openComment
  intro hall
  have hcode := hall d hmem
  rw [hstart] at hcode
  exact absurd (hcode.symm.trans inCode_openComment) Bool.noConfusion

end Comment

end Grammar

end Outline
