import Outline.Grammar.JavaScript
import Outline.Pending
import Outline.Proofs.Text.Solid

namespace Outline

namespace Text

variable {t separator : Text} {texts : List Text}

/-- Trimming leaves nothing or a solid text. -/
theorem eq_nil_or_solid_of_trim (htrim : trim t = t) : t = [] ∨ Solid t := by
  by_cases hne : t = []
  · exact .inl hne
  · exact .inr (htrim ▸ solid_trim (by rwa [htrim]))

/-- Texts one after the other begin as the first and end as the last of them. -/
theorem solid_join (hfirst : ∀ t ∈ texts.head?, StartsSolid t) (hlast : ∀ t ∈ texts.getLast?, EndsSolid t)
    (hne : texts ≠ []) : Solid (join separator texts) where
  starts := by
    obtain ⟨t, rest, rfl⟩ := List.exists_cons_of_ne_nil hne
    rw [join_cons_eq_flatMap]
    exact (hfirst t rfl).append _
  ends := by
    clear hfirst
    induction texts with
    | nil => exact absurd rfl hne
    | cons t rest ih =>
      cases rest with
      | nil => exact hlast t rfl
      | cons u rest =>
        rw [join_cons (List.cons_ne_nil u rest)]
        exact (ih hlast (List.cons_ne_nil u rest)).append _

theorem cut?_eq_none_iff {needle : Text} : cut? needle t = none ↔ ¬ needle <:+: t := by
  rw [← contains_iff, contains, Bool.not_eq_true, Option.isSome_eq_false_iff, Option.isNone_iff_eq_none]

end Text

/-- Lines that do not begin with an empty one lose none at their beginning. -/
theorem dropWhile_isEmpty {lines : List Text} (hfirst : [] ∉ lines.head?) : lines.dropWhile List.isEmpty = lines := by
  cases lines with
  | nil => rfl
  | cons line rest =>
    have hsome : line ≠ [] := by simpa using hfirst
    exact List.dropWhile_cons_of_neg (by simpa using hsome)

/-- Of trimmed lines only blank ones around them are dropped. -/
theorem cleanLines_eq_join {texts : List Text} (hne : texts ≠ []) (htrim : ∀ t ∈ texts, Text.trim t = t)
    (hfirst : [] ∉ texts.head?) (hlast : [] ∉ texts.getLast?) :
    cleanLines ([] :: (texts ++ [[]])) = Text.join ['\n'] texts := by
  have hmap : ([] :: (texts ++ [[]])).map Text.trim = [] :: (texts ++ [[]]) := by
    rw [List.map_cons, List.map_append, List.map_congr_left htrim, List.map_id']
    rfl
  have hfront : ([] :: (texts ++ [[]])).dropWhile List.isEmpty = texts ++ [[]] := by
    have hhead : [] ∉ (texts ++ [[]]).head? := by rwa [List.head?_append_of_ne_nil _ hne]
    exact dropWhile_isEmpty hhead
  have hback : (texts ++ [[]]).reverse.dropWhile List.isEmpty = texts.reverse := by
    rw [List.reverse_append]
    exact dropWhile_isEmpty (by rwa [List.head?_reverse])
  rw [cleanLines, hmap, hfront, hback, List.reverse_reverse]

/-- What is left of lines is nothing or a solid text. -/
theorem cleanLines_eq_nil_or_solid (parts : List Text) : cleanLines parts = [] ∨ Text.Solid (cleanLines parts) := by
  obtain ⟨trimmed, htrimmed⟩ : ∃ trimmed, (parts.map Text.trim).dropWhile List.isEmpty = trimmed := ⟨_, rfl⟩
  obtain ⟨kept, hkept⟩ : ∃ kept, (trimmed.reverse.dropWhile List.isEmpty).reverse = kept := ⟨_, rfl⟩
  have hclean : cleanLines parts = Text.join ['\n'] kept := by rw [cleanLines, htrimmed, hkept]
  rw [hclean]
  by_cases hne : kept = []
  · exact .inl (by rw [hne]; rfl)
  have hbegins : kept <+: trimmed := by
    rw [← hkept, ← List.reverse_suffix, List.reverse_reverse]
    exact List.dropWhile_suffix _
  have hsolid : ∀ t ∈ kept, t ≠ [] → Text.Solid t := by
    intro t hmem hsome
    have hpart : t ∈ parts.map Text.trim := by
      rw [← htrimmed] at hbegins
      exact (List.dropWhile_suffix _).subset (hbegins.subset hmem)
    obtain ⟨part, -, rfl⟩ := List.mem_map.1 hpart
    exact Text.solid_trim hsome
  refine .inr (Text.solid_join (fun t ht => ?_) (fun t ht => ?_) hne)
  · -- the first line that is kept is the first that is not blank
    have hhead := List.head?_dropWhile_not List.isEmpty (parts.map Text.trim)
    obtain ⟨more, rfl⟩ := hbegins
    rw [htrimmed, List.head?_append_of_ne_nil _ hne, ht] at hhead
    exact (hsolid t (List.mem_of_mem_head? ht) (by simpa using hhead)).starts
  · have hhead := List.head?_dropWhile_not List.isEmpty trimmed.reverse
    rw [← hkept, List.getLast?_reverse] at ht
    rw [ht] at hhead
    rw [← List.getLast?_reverse, hkept] at ht
    exact (hsolid t (List.mem_of_getLast? ht) (by simpa using hhead)).ends

namespace DocStyle

/-- The lines of a block that holds the texts, behind the line of its opening mark. -/
def starredLines (indent : Text) (texts : List Text) : List Text :=
  texts.map (fun t => indent ++ ([' ', '*', ' '] ++ t)) ++ [indent ++ [' ', '*', '/']]

variable {closer indent t text : Text} {texts others : List Text}

/-- The line of a text without the white space around it: its margin and the text. -/
theorem trim_starred (hindent : Text.Blank indent) (htrim : Text.trim t = t) :
    Text.trim (indent ++ ([' ', '*', ' '] ++ t)) = if t = [] then ['*'] else ['*', ' '] ++ t := by
  have hspace : Text.Blank [' '] := by decide
  rw [Text.trim_blank_append hindent]
  change Text.trim ([' '] ++ (['*', ' '] ++ t)) = _
  rw [Text.trim_blank_append hspace]
  rcases Text.eq_nil_or_solid_of_trim htrim with rfl | hsolid
  · rfl
  · have hstarts : Text.StartsSolid (['*', ' '] ++ t) := ⟨'*', ' ' :: t, rfl, rfl⟩
    rw [if_neg hsolid.ends.ne_nil]
    exact Text.Solid.trim ⟨hstarts, hsolid.ends.append _⟩

/-- Behind its margin the line of a text is the text, whatever the text begins with. -/
theorem trimEnd_stripMargin_starred (hindent : Text.Blank indent) (htrim : Text.trim t = t) :
    Text.trimEnd (stripMargin (Text.trim (indent ++ ([' ', '*', ' '] ++ t)))) = t := by
  rw [trim_starred hindent htrim]
  rcases Text.eq_nil_or_solid_of_trim htrim with rfl | hsolid
  · rfl
  · have hstarts : Text.StartsSolid (['*', ' '] ++ t) := ⟨'*', ' ' :: t, rfl, rfl⟩
    rw [if_neg hsolid.ends.ne_nil, stripMargin, hstarts.trimStart]
    exact hsolid.ends.trimEnd

/-- The line of a text does not close the block unless the text does. -/
theorem cut?_starred (hindent : Text.Blank indent) (htrim : Text.trim t = t) (hopen : ¬ ['*', '/'] <:+: t) :
    Text.cut? ['*', '/'] (Text.trim (indent ++ ([' ', '*', ' '] ++ t))) = none := by
  rw [trim_starred hindent htrim]
  split
  · rfl
  · rw [Text.cut?_eq_none_iff]
    intro hwithin
    rcases List.infix_cons_iff.1 hwithin with hstarts | hwithin
    · exact absurd hstarts (by simp)
    · rcases List.infix_cons_iff.1 hwithin with hstarts | hwithin
      · exact absurd hstarts (by simp)
      · exact hopen hwithin

/-- A line that does not close the block is one part of it. -/
theorem collectBlock_cons (hopen : Text.cut? closer text = none) (next : Text) (rest : List Text) :
    collectBlock closer text (next :: rest) =
      (Text.trimEnd (stripMargin text) :: (collectBlock closer (Text.trim next) rest).1,
        (collectBlock closer (Text.trim next) rest).2 + 1) := by
  rw [collectBlock, hopen]

/-- The texts of a block are its parts, between what stands on the line of the opening mark and the empty rest of the
closing line. -/
theorem collectBlock_starredLines (hindent : Text.Blank indent) (htrim : ∀ t ∈ texts, Text.trim t = t)
    (hopen : ∀ t ∈ texts, ¬ ['*', '/'] <:+: t) (hfirst : Text.cut? ['*', '/'] text = none) (others : List Text) :
    collectBlock ['*', '/'] text (starredLines indent texts ++ others) =
      (Text.trimEnd (stripMargin text) :: (texts ++ [[]]), texts.length + 1) := by
  induction texts generalizing text with
  | nil =>
    have hclose : Text.trim (indent ++ [' ', '*', '/']) = ['*', '/'] := by
      rw [Text.trim_blank_append hindent]
      rfl
    have hlast : collectBlock ['*', '/'] ['*', '/'] others = ([[]], 0) := by
      cases others <;> rfl
    change collectBlock ['*', '/'] text ((indent ++ [' ', '*', '/']) :: others) = _
    rw [collectBlock_cons hfirst, hclose, hlast]
    rfl
  | cons t texts ih =>
    obtain ⟨ht, htrim⟩ := List.forall_mem_cons.1 htrim
    obtain ⟨ht', hopen⟩ := List.forall_mem_cons.1 hopen
    change collectBlock ['*', '/'] text
      ((indent ++ ([' ', '*', ' '] ++ t)) :: (starredLines indent texts ++ others)) = _
    rw [collectBlock_cons hfirst, ih htrim hopen (cut?_starred hindent ht ht'),
      trimEnd_stripMargin_starred hindent ht]
    rfl

/-- A block that no line closes takes all lines. -/
theorem snd_collectBlock_of_open (hfirst : Text.cut? closer text = none)
    (hopen : ∀ line ∈ others, Text.cut? closer (Text.trim line) = none) :
    (collectBlock closer text others).2 = others.length := by
  induction others generalizing text with
  | nil => rfl
  | cons next rest ih =>
    obtain ⟨hnext, hrest⟩ := List.forall_mem_cons.1 hopen
    rw [collectBlock_cons hfirst, ih hnext hrest, List.length_cons]

/-- What is collected of a line that begins with the opening mark. -/
theorem collectBlockDoc_of_opener {style : DocStyle} {opener line : Text} (hblock : style.block = some (opener, closer))
    (hline : Text.trim line = opener ++ text) (following : List Text) :
    style.collectBlockDoc line following =
      (cleanLines (collectBlock closer text following).1, (collectBlock closer text following).2) := by
  simp only [collectBlockDoc, hblock, hline, Text.strip?_append, Option.getD_some]

end DocStyle

/-- A solid text that waits alone is the documentation that waits. -/
theorem Pending.doc?_pushDoc_empty {text : Text} (hsolid : Text.Solid text) :
    (Pending.empty.pushDoc text).doc? = some text := by
  have hne : ¬ text.isEmpty = true := by simpa using hsolid.ends.ne_nil
  change (if (Text.trim text).isEmpty then none else some (Text.trim text)) = some text
  rw [hsolid.trim, if_neg hne]

namespace DocStyle

/-- Texts are read back from the lines of a block, whatever they begin with, and wait as they are; a block that is
never closed takes all lines there are. The texts have no white space at their ends and no closing mark, and the
first and the last are not empty. -/
theorem collectBlockDoc_roundTrip {style : DocStyle} (hblock : style.block = some (['/', '*', '*'], ['*', '/'])) :
    (∀ (indent : Text) (texts others : List Text), Text.Blank indent → texts ≠ [] →
        (∀ t ∈ texts, Text.trim t = t) → (∀ t ∈ texts, ¬ ['*', '/'] <:+: t) →
        [] ∉ texts.head? → [] ∉ texts.getLast? →
        style.collectBlockDoc (indent ++ ['/', '*', '*']) (starredLines indent texts ++ others) =
            (Text.join ['\n'] texts, texts.length + 1) ∧
          (Pending.empty.pushDoc (Text.join ['\n'] texts)).doc? = some (Text.join ['\n'] texts)) ∧
      ∀ (line opened : Text) (others : List Text), Text.trim line = ['/', '*', '*'] ++ opened →
        ¬ ['*', '/'] <:+: opened → (∀ other ∈ others, ¬ ['*', '/'] <:+: other) →
        (style.collectBlockDoc line others).2 = others.length := by
  have hmark : Text.Solid ['*', '/'] := ⟨⟨'*', ['/'], rfl, rfl⟩, ['*'], '/', rfl, rfl⟩
  constructor
  · intro indent texts others hindent hne htrim hopen hfirst hlast
    have hline : Text.trim (indent ++ ['/', '*', '*']) = ['/', '*', '*'] ++ [] := by
      rw [Text.trim_blank_append hindent]
      rfl
    rw [collectBlockDoc_of_opener hblock hline, collectBlock_starredLines hindent htrim hopen rfl]
    refine ⟨Prod.ext (cleanLines_eq_join hne htrim hfirst hlast) rfl, ?_⟩
    have hsolid (t : Text) (hmem : t ∈ texts) (hsome : t ≠ []) : Text.Solid t :=
      (Text.eq_nil_or_solid_of_trim (htrim t hmem)).resolve_left hsome
    refine Pending.doc?_pushDoc_empty (Text.solid_join (fun t ht => ?_) (fun t ht => ?_) hne)
    · exact (hsolid t (List.mem_of_mem_head? ht) fun hnil => hfirst (hnil ▸ ht)).starts
    · exact (hsolid t (List.mem_of_getLast? ht) fun hnil => hlast (hnil ▸ ht)).ends
  · intro line opened others hline hopened hothers
    rw [collectBlockDoc_of_opener hblock hline]
    refine snd_collectBlock_of_open (Text.cut?_eq_none_iff.2 hopened) fun other hmem => ?_
    rw [Text.cut?_eq_none_iff, hmark.isInfix_trim_iff]
    exact hothers other hmem

/-- Texts that begin with a star, a slash and both, with an empty one among them, are read back; without the closing
line their block takes the line of code behind it too. -/
theorem collectBlockDoc_roundTrip_marks :
    Grammar.scriptDocs.collectBlockDoc "\t/**".toList
        ["\t * * a".toList, "\t * ".toList, "\t * /b*".toList, "\t */".toList, "f();".toList] =
      ("* a\n\n/b*".toList, 4) ∧
    (Grammar.scriptDocs.collectBlockDoc "\t/** a".toList ["\t * * b".toList, "f();".toList]).2 = 2 := by
  have hread := (@collectBlockDoc_roundTrip Grammar.scriptDocs rfl).1 ['\t']
    ["* a".toList, [], "/b*".toList] ["f();".toList] (by decide) (by decide) (by decide +kernel) (by decide)
    (by decide) (by decide)
  have hopen := (@collectBlockDoc_roundTrip Grammar.scriptDocs rfl).2 "\t/** a".toList " a".toList
    ["\t * * b".toList, "f();".toList] (by decide +kernel) (by decide) (by decide)
  exact ⟨hread.1, hopen⟩

end DocStyle

end Outline
