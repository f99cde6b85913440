import Mathlib.Data.List.Chain
import Outline.Proofs.Attribute.Closing
import Outline.Proofs.Grammar.SolidNames

namespace Outline

namespace Text

/-- A text without white space around it or in rows. -/
structure Tidy (t : Text) : Prop where
  solid : Solid t
  single : t.IsChain fun c d => ¬ (isBlank c = true ∧ isBlank d = true)

variable {t : Text}

theorem tidy_of_forall (hne : t ≠ []) (ht : ∀ c ∈ t, isBlank c = false) : Tidy t where
  solid := solid_of_forall hne ht
  single := by
    clear hne
    induction t with
    | nil => exact .nil
    | cons c t ih =>
      obtain ⟨hc, ht⟩ := List.forall_mem_cons.1 ht
      exact List.isChain_cons.2 ⟨fun d _ => by simp [hc], ih ht⟩

theorem squeeze_cons_cases (c : Char) (t : Text) :
    (isBlank c = false ∧ squeeze (c :: t) = c :: squeeze t) ∨
      (isBlank c = true ∧ (∀ d ∈ t.head?, isBlank d = false) ∧ squeeze (c :: t) = ' ' :: squeeze t) ∨
      (isBlank c = true ∧ squeeze (c :: t) = squeeze t) := by
  cases hc : isBlank c with
  | false => exact .inl ⟨rfl, by simp [squeeze, hc]⟩
  | true =>
    refine .inr ?_
    cases t with
    | nil => exact .inl ⟨rfl, by simp, by simp [squeeze, hc]⟩
    | cons d t =>
      cases hd : isBlank d with
      | false => exact .inl ⟨rfl, by simpa using hd, by simp [squeeze, hc, hd]⟩
      | true => exact .inr ⟨rfl, by simp [squeeze, hc, hd]⟩

/-- What stands first is not white space unless the text begins with white space. -/
theorem head?_squeeze (hhead : ∀ c ∈ t.head?, isBlank c = false) : ∀ c ∈ (squeeze t).head?, isBlank c = false := by
  cases t with
  | nil => exact hhead
  | cons c t =>
    rcases squeeze_cons_cases c t with ⟨-, heq⟩ | ⟨hc, -⟩ | ⟨hc, -⟩
    · rw [heq]
      simpa using hhead
    · simp [hc] at hhead
    · simp [hc] at hhead

theorem isChain_squeeze (t : Text) :
    (squeeze t).IsChain fun c d => ¬ (isBlank c = true ∧ isBlank d = true) := by
  induction t with
  | nil => exact .nil
  | cons c t ih =>
    rcases squeeze_cons_cases c t with ⟨hc, heq⟩ | ⟨-, hnext, heq⟩ | ⟨-, heq⟩
    · rw [heq, List.isChain_cons]
      exact ⟨fun d _ => by simp [hc], ih⟩
    · rw [heq, List.isChain_cons]
      exact ⟨fun d hd => by simp [head?_squeeze hnext d hd], ih⟩
    · rw [heq]
      exact ih

theorem endsSolid_iff : EndsSolid t ↔ ∃ c ∈ t.getLast?, isBlank c = false := by
  constructor
  · rintro ⟨front, c, rfl, hc⟩
    exact ⟨c, List.getLast?_concat, hc⟩
  · rintro ⟨c, hlast, hc⟩
    obtain ⟨front, rfl⟩ := List.getLast?_eq_some_iff.1 hlast
    exact ⟨front, c, rfl, hc⟩

theorem EndsSolid.squeeze (ht : EndsSolid t) : EndsSolid (Text.squeeze t) := by
  induction t with
  | nil => exact absurd rfl ht.ne_nil
  | cons c t ih =>
    cases t with
    | nil =>
      have hc : isBlank c = false := by simpa [endsSolid_iff] using ht
      exact endsSolid_iff.2 ⟨c, by simp [Text.squeeze, hc], hc⟩
    | cons d t =>
      have hlater := ih (endsSolid_iff.2 (List.getLast?_cons_cons ▸ endsSolid_iff.1 ht))
      rcases squeeze_cons_cases c (d :: t) with ⟨-, heq⟩ | ⟨-, -, heq⟩ | ⟨-, heq⟩
      · rw [heq]
        exact hlater.append [c]
      · rw [heq]
        exact hlater.append [' ']
      · rw [heq]
        exact hlater

theorem Solid.tidy_squeeze (ht : Solid t) : Tidy (Text.squeeze t) where
  solid.starts := by
    obtain ⟨c, rest, rfl, hc⟩ := ht.starts
    exact ⟨c, Text.squeeze rest, by simp [Text.squeeze, hc], hc⟩
  solid.ends := ht.ends.squeeze
  single := isChain_squeeze t

end Text

/-- A visible text is tidy on one line. -/
theorem Text.IsVisible.tidy_normalizeText {t : Text} (ht : t.IsVisible) : Text.Tidy (normalizeText t) :=
  ht.solid_trim.tidy_squeeze

/-- An attribute only grows when further lines are added. -/
theorem isPrefix_joinAttribute (text : Text) (lines : List Text) : text <+: (joinAttribute text lines).1 := by
  induction lines generalizing text with
  | nil => exact List.prefix_rfl
  | cons line rest ih =>
    rw [joinAttribute]
    split
    · exact (List.prefix_append _ _).trans (ih _)
    · exact List.prefix_rfl

namespace AttributeStyle

variable {style : AttributeStyle} {t : Text}

theorem ne_nil_of_startsAttribute (hstarts : style.startsAttribute t = true) : t ≠ [] := by
  rintro rfl
  cases style <;> simp [startsAttribute, Text.startsWith, Text.strip?] at hstarts

/-- An attribute that is collected from the line that begins it is tidy. -/
theorem tidy_collect {line : Text} (hstarts : style.startsAttribute (Text.trim line) = true) (following : List Text) :
    Text.Tidy (collect line following).1 := by
  have hvisible := (Text.solid_trim (ne_nil_of_startsAttribute hstarts)).isVisible
  obtain ⟨c, hmem, hc⟩ := hvisible
  exact Text.IsVisible.tidy_normalizeText ⟨c, (isPrefix_joinAttribute _ _).subset hmem, hc⟩

theorem isVisible_of_mem_leadingHashAttributes {gapped : Text × Text}
    (hmem : gapped ∈ (leadingHashAttributes t).1) : gapped.2.IsVisible := by
  fun_induction leadingHashAttributes t with
  | case1 => cases hmem
  | case2 t gap mark rest hsome hshorter later ih =>
    rcases List.mem_cons.1 hmem with rfl | hmem
    · obtain ⟨-, opened, inner, -, rfl, -⟩ := hashAttribute?_eq_some_iff.1 hsome
      exact ⟨'#', List.mem_cons_self, rfl⟩
    · exact ih hmem

theorem isVisible_of_mem_foundTexts {p : Pattern} (hp : p.everyGroup .item Pattern.isSolid = true) {text : Text}
    (hmem : text ∈ foundTexts p t) : text.IsVisible := by
  obtain ⟨found, hfound, htext⟩ := List.mem_filterMap.1 hmem
  obtain ⟨start, hstart, hmatches⟩ := Pattern.exists_matches_of_mem_findFrom hfound
  exact (hmatches.solid_of_text? hp hstart htext).isVisible

/-- The attributes on the line of a declaration are tidy. -/
theorem tidy_of_mem_inline {head text : Text} (hmem : text ∈ style.inline head) : Text.Tidy text := by
  cases style with
  | absent => cases hmem
  | hash =>
    obtain ⟨found, hfound, rfl⟩ := List.mem_map.1 hmem
    exact (isVisible_of_mem_leadingHashAttributes hfound).tidy_normalizeText
  | atSign =>
    obtain ⟨found, hfound, rfl⟩ := List.mem_map.1 hmem
    exact (isVisible_of_mem_foundTexts (by decide) (List.mem_filter.1 hfound).1).tidy_normalizeText
  | bracket =>
    obtain ⟨found, hfound, rfl⟩ := List.mem_map.1 hmem
    exact (isVisible_of_mem_foundTexts (by decide) hfound).tidy_normalizeText

end AttributeStyle

end Outline
