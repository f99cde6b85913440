import Outline.Proofs.Imports.UseTree

namespace Outline

namespace Imports.UseTree

open Text

section Leaves

variable {separator t : Text} {alias? : Option Text}

theorem onOneLine_eq_self (ht : Solid t) (hfeed : '\n' ∉ t) : onOneLine t = t := by
  rw [onOneLine_of_not_mem hfeed, ht.trim]

theorem onOneLine_of_forall (hne : t ≠ []) (ht : ∀ c ∈ t, isBlank c = false) : onOneLine t = t :=
  onOneLine_eq_self (solid_of_forall hne ht) fun hmem => absurd (ht _ hmem) (by decide)

theorem Clear.not_feed (ht : Clear t) : '\n' ∉ t := fun hmem => absurd (ht _ hmem).1 (by decide)

theorem not_feed_renamed (halias : ∀ name ∈ alias?, IsWord name) : '\n' ∉ renamed alias? := by
  cases alias? with
  | none => exact List.not_mem_nil
  | some name =>
    rw [renamed, List.mem_append, not_or]
    exact ⟨by decide, (halias name rfl).clear.not_feed⟩

end Leaves

mutual

/-- A tree is still written when its lines are put behind each other. -/
theorem written_onOneLine {separator text : Text} {tree : UseTree} (hsep : IsSeparator separator)
    (htree : Written separator tree text) : Written separator tree (onOneLine text) := by
  have hsolid := htree.solid hsep
  cases htree with
  | path hne hself hwords halias =>
    have hfeed := not_or.2 ⟨(clear_join hsep hwords).not_feed, not_feed_renamed halias⟩
    rw [onOneLine_eq_self hsolid (mt List.mem_append.1 hfeed)]
    exact .path hne hself hwords halias
  | all hwords =>
    have hfeed := not_or.2 ⟨(clear_stem hsep hwords).not_feed, isWord_star.clear.not_feed⟩
    rw [onOneLine_eq_self hsolid (mt List.mem_append.1 hfeed)]
    exact .all hwords
  | self halias =>
    have hfeed := not_or.2 ⟨isWord_selfWord.clear.not_feed, not_feed_renamed halias⟩
    rw [onOneLine_eq_self hsolid (mt List.mem_append.1 hfeed)]
    exact .self halias
  | @group words trees inside hwords hinside =>
    obtain ⟨laid, hlaid, hjoined⟩ := writtenIn_onOneLine hsep hinside
    have hopening : ∀ c ∈ stem separator words ++ ['{'], isBlank c = false := by
      rw [List.forall_mem_append, List.forall_mem_singleton]
      exact ⟨fun c hc => (clear_stem hsep hwords c hc).1, by decide⟩
    have hclosing : ∀ c ∈ ['}'], isBlank c = false := List.forall_mem_singleton.2 (by decide)
    have hne : stem separator words ++ ['{'] ≠ [] := List.append_ne_nil_of_right_ne_nil _ (List.cons_ne_nil '{' [])
    -- the braces are solid, so the inside is laid out between them
    have hgroup := hjoined (stem separator words ++ ['{']) ['}'] (solid_of_forall hne hopening).ends
      (solid_of_forall (List.cons_ne_nil '}' []) hclosing)
    rw [onOneLine_of_forall hne hopening, onOneLine_of_forall (List.cons_ne_nil '}' []) hclosing, List.append_assoc,
      List.append_assoc, List.singleton_append, List.singleton_append] at hgroup
    rw [hgroup]
    exact .group hwords hlaid

/-- Between solid texts, the inside of a group is laid out by itself. -/
theorem writtenIn_onOneLine {separator text : Text} {trees : List UseTree} (hsep : IsSeparator separator)
    (htrees : WrittenIn separator trees text) :
    ∃ laid, WrittenIn separator trees laid ∧ ∀ front rest, EndsSolid front → Solid rest →
      onOneLine (front ++ (text ++ rest)) = onOneLine front ++ (laid ++ onOneLine rest) := by
  cases htrees with
  | none hfill =>
    refine ⟨oneLineFill text, .none (blank_oneLineFill hfill), ?_⟩
    intro front rest hfront hrest
    exact onOneLine_between hfront hfill hrest
  | @last before after text tree hbefore htree hafter =>
    have hsolid := htree.solid hsep
    refine ⟨_, .last (blank_oneLineFill hbefore) (written_onOneLine hsep htree) (blank_oneLineFill hafter), ?_⟩
    intro front rest hfront hrest
    have hmore : Solid (text ++ (after ++ rest)) := ⟨hsolid.starts.append _, (hrest.ends.append _).append _⟩
    rw [List.append_assoc before, List.append_assoc text, onOneLine_between hfront hbefore hmore,
      onOneLine_between hsolid.ends hafter hrest]
    simp only [List.append_assoc]
  | @cons before after text items tree trees hbefore htree hafter hitems =>
    obtain ⟨laid, hlaid, hjoined⟩ := writtenIn_onOneLine hsep hitems
    have hsolid := htree.solid hsep
    refine ⟨_, .cons (blank_oneLineFill hbefore) (written_onOneLine hsep htree) (blank_oneLineFill hafter) hlaid, ?_⟩
    intro front rest hfront hrest
    have hcomma : Solid [','] := solid_of_forall (by decide) (List.forall_mem_singleton.2 (by decide))
    have hlater : Solid ([','] ++ (items ++ rest)) := ⟨hcomma.starts.append _, (hrest.ends.append _).append _⟩
    have hmore : Solid (text ++ (after ++ ([','] ++ (items ++ rest)))) :=
      ⟨hsolid.starts.append _, (hlater.ends.append _).append _⟩
    have hassoc : before ++ (text ++ after) ++ ',' :: items ++ rest =
        before ++ (text ++ (after ++ ([','] ++ (items ++ rest)))) := by simp
    rw [hassoc, onOneLine_between hfront hbefore hmore, onOneLine_between hsolid.ends hafter hlater,
      hjoined [','] rest hcomma.ends hrest]
    rw [onOneLine_eq_self hcomma (by decide)]
    simp

end

section Marks

variable {separator t text : Text} {alias? : Option Text} {words : List Text} {tree : UseTree}

/-- Neither the end of a statement nor a quote. -/
def Quiet (t : Text) : Prop :=
  ∀ c ∈ t, c ≠ ';' ∧ c ≠ '\'' ∧ c ≠ '"'

instance (t : Text) : Decidable (Quiet t) :=
  decidable_of_iff (t.all (fun c => decide (c ≠ ';' ∧ c ≠ '\'' ∧ c ≠ '"')) = true) (by simp [Quiet])

theorem Quiet.append {s : Text} (hs : Quiet s) (ht : Quiet t) : Quiet (s ++ t) :=
  List.forall_mem_append.2 ⟨hs, ht⟩

theorem quiet_blank (ht : Blank t) : Quiet t := by
  intro c hc
  have hblank := ht c hc
  refine ⟨?_, ?_, ?_⟩ <;> (rintro rfl; exact absurd hblank (by decide))

theorem Quiet.filled (ht : Quiet t) {before after : Text} (hbefore : Blank before) (hafter : Blank after) :
    Quiet (before ++ (t ++ after)) :=
  (quiet_blank hbefore).append (ht.append (quiet_blank hafter))

theorem IsWord.quiet {word : Text} (hword : IsWord word) : Quiet word := by
  intro c hc
  have hmark := hword.mark c hc
  refine ⟨?_, ?_, ?_⟩ <;> (rintro rfl; exact hmark (by decide))

theorem IsSeparator.quiet (hsep : IsSeparator separator) : Quiet separator := by
  intro c hc
  rcases hsep.mark c hc with rfl | rfl
  · decide
  · decide

theorem quiet_renamed (halias : ∀ name ∈ alias?, IsWord name) : Quiet (renamed alias?) := by
  cases alias? with
  | none => exact List.forall_mem_nil _
  | some name =>
    have has : Quiet " as ".toList := by decide
    exact has.append (halias name rfl).quiet

theorem quiet_stem (hsep : IsSeparator separator) (hwords : ∀ word ∈ words, IsWord word) :
    Quiet (stem separator words) := by
  intro c hc
  obtain ⟨word, hword, hc⟩ := List.mem_flatMap.1 hc
  exact ((hwords word hword).quiet.append hsep.quiet) c hc

theorem quiet_join (hsep : IsSeparator separator) (hwords : ∀ word ∈ words, IsWord word) :
    Quiet (join separator words) := by
  by_cases hne : words = []
  · subst hne
    exact List.forall_mem_nil _
  · have hstem := quiet_stem hsep hwords
    rw [stem_eq_join_append hne] at hstem
    exact (List.forall_mem_append.1 hstem).1

end Marks

mutual

/-- No statement ends within a tree, and no quote stands in it. -/
theorem quiet_written {separator text : Text} {tree : UseTree} (hsep : IsSeparator separator)
    (htree : Written separator tree text) : Quiet text := by
  cases htree with
  | path _ _ hwords halias => exact (quiet_join hsep hwords).append (quiet_renamed halias)
  | all hwords => exact (quiet_stem hsep hwords).append isWord_star.quiet
  | self halias => exact isWord_selfWord.quiet.append (quiet_renamed halias)
  | group hwords hinside =>
    have hclosing : Quiet ['}'] := by decide
    apply (quiet_stem hsep hwords).append
    exact List.forall_mem_cons.2 ⟨by decide, (quiet_writtenIn hsep hinside).append hclosing⟩

theorem quiet_writtenIn {separator text : Text} {trees : List UseTree} (hsep : IsSeparator separator)
    (htrees : WrittenIn separator trees text) : Quiet text := by
  cases htrees with
  | none hfill => exact quiet_blank hfill
  | last hbefore htree hafter => exact (quiet_written hsep htree).filled hbefore hafter
  | cons hbefore htree hafter hrest =>
    apply ((quiet_written hsep htree).filled hbefore hafter).append
    exact List.forall_mem_cons.2 ⟨by decide, quiet_writtenIn hsep hrest⟩

end

section Fronts

variable {separator t text word : Text} {alias? : Option Text} {words : List Text} {tree : UseTree} {c : Char}

/-- A path begins with a character that is not in the separator. -/
theorem exists_join_eq_cons (hsep : IsSeparator separator) (hne : words ≠ []) (hwords : ∀ word ∈ words, IsWord word) :
    ∃ c rest, join separator words = c :: rest ∧ c ∉ separator := by
  obtain ⟨word, more, rfl⟩ := List.exists_cons_of_ne_nil hne
  have hword : IsWord word := hwords word List.mem_cons_self
  obtain ⟨c, rest, rfl⟩ := List.exists_cons_of_ne_nil hword.ne_nil
  have hc : c ∉ separator := hsep.not_mem_word hword List.mem_cons_self
  cases more with
  | nil => exact ⟨c, rest, rfl, hc⟩
  | cons second more => exact ⟨c, rest ++ separator ++ join separator (second :: more), rfl, hc⟩

theorem not_prefix_of_cons (hc : c ∉ separator) (hsep : IsSeparator separator) (rest : Text) :
    ¬ separator <+: c :: rest := by
  obtain ⟨d, marks, rfl⟩ := List.exists_cons_of_ne_nil hsep.ne_nil
  rw [List.cons_prefix_cons]
  rintro ⟨rfl, -⟩
  exact hc List.mem_cons_self

theorem not_prefix_stem_append (hsep : IsSeparator separator) (hwords : ∀ word ∈ words, IsWord word)
    (ht : ¬ separator <+: t) : ¬ separator <+: stem separator words ++ t := by
  by_cases hne : words = []
  · subst hne
    exact ht
  · obtain ⟨c, rest, hjoin, hc⟩ := exists_join_eq_cons hsep hne hwords
    rw [stem_eq_join_append hne, hjoin]
    exact not_prefix_of_cons hc hsep _

/-- A tree does not begin with the separator. -/
theorem not_prefix_written (hsep : IsSeparator separator) (htree : Written separator tree text) :
    ¬ separator <+: text := by
  have hmark {c : Char} (hc : c ≠ ':' ∧ c ≠ '\\') : c ∉ separator := fun hmem =>
    (hsep.mark c hmem).elim hc.1 hc.2
  cases htree with
  | path hne _ hwords _ =>
    obtain ⟨c, rest, hjoin, hc⟩ := exists_join_eq_cons hsep hne hwords
    rw [hjoin]
    exact not_prefix_of_cons hc hsep _
  | all hwords => exact not_prefix_stem_append hsep hwords (not_prefix_of_cons (hmark (by decide)) hsep _)
  | self _ => exact not_prefix_of_cons (hmark (by decide)) hsep _
  | group hwords _ => exact not_prefix_stem_append hsep hwords (not_prefix_of_cons (hmark (by decide)) hsep _)

/-- What comes before the first white space of a text. -/
theorem takeWhile_append_blank (ht : ∀ c ∈ t, isBlank c = false) (hc : isBlank c = true) (rest : Text) :
    (t ++ c :: rest).takeWhile (fun d => !isBlank d) = t := by
  rw [List.takeWhile_append_of_pos (fun d hd => by rw [ht d hd, Bool.not_false]),
    List.takeWhile_cons_of_neg (by rw [hc, Bool.not_true]; exact Bool.false_ne_true), List.append_nil]

/-- In front of the first white space there is a single word only where this word has another name. -/
theorem exists_eq_path (hsep : IsSeparator separator) (htree : Written separator tree text) (hword : IsWord word)
    (hself : word ≠ selfWord) (hc : isBlank c = true) {more : Text} (htext : text = word ++ c :: more) :
    ∃ name, tree = .path [word] (some name) := by
  have hspace : isBlank ' ' = true := by decide
  have hfront := takeWhile_append_blank hword.blank hc more
  have hnot : ¬ Clear text := fun hclear => absurd hc (by simp [(hclear c (by simp [htext])).1])
  rw [← htext] at hfront
  cases htree with
  | @path words alias? hne _ hwords halias =>
    cases alias? with
    | none => exact absurd (by simpa [renamed] using clear_join hsep hwords) hnot
    | some name =>
      have hjoin := takeWhile_append_blank (fun d hd => (clear_join hsep hwords d hd).1) hspace ("as ".toList ++ name)
      refine ⟨name, ?_⟩
      rw [eq_singleton_of_join hsep hne hword (hjoin.symm.trans hfront)]
  | all hwords => exact absurd (List.forall_mem_append.2 ⟨clear_stem hsep hwords, isWord_star.clear⟩) hnot
  | @self alias? halias =>
    cases alias? with
    | none => exact absurd isWord_selfWord.clear hnot
    | some name =>
      have hselfWord := takeWhile_append_blank isWord_selfWord.blank hspace ("as ".toList ++ name)
      exact absurd (hfront.symm.trans hselfWord) hself
  | @group words trees inside hwords hinside =>
    have hbrace : isBlank '{' = false := by decide
    have hopen : '{' ∈ word := by
      rw [← hfront, List.takeWhile_append_of_pos fun d hd => by rw [(clear_stem hsep hwords d hd).1, Bool.not_false]]
      simp [hbrace]
    exact absurd rfl (hword.clear _ hopen).2.2.1

end Fronts

end Imports.UseTree

end Outline
