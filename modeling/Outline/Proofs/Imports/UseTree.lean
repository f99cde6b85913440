import Outline.Imports.UseTree
import Outline.Proofs.Text.Solid

namespace Outline

namespace Imports

/-- What is brought into scope, below the path of the groups around it. -/
inductive UseTree where
  /-- A path, perhaps under another name. -/
  | path (words : List Text) (alias? : Option Text)
  /-- Every name below a path. -/
  | all (words : List Text)
  /-- The path of the group itself, perhaps under another name. -/
  | self (alias? : Option Text)
  /-- Several trees below a path, which may be empty. -/
  | group (words : List Text) (trees : List UseTree)

/-- The mark for every name below a path. -/
def star : Text :=
  ['*']

/-- The word that stands for the path of a group. -/
def selfWord : Text :=
  ['s', 'e', 'l', 'f']

namespace UseTree

mutual

/-- The paths to the leaves of a tree below the path `above`, from left to right. The path of a group that has none is
no leaf. -/
def leaves (above : List Text) : UseTree → List (List Text)
  | .path words _ => [above ++ words]
  | .all words => [above ++ (words ++ [star])]
  | .self _ => if above.isEmpty then [] else [above]
  | .group words trees => leavesOf (above ++ words) trees

/-- The paths to the leaves of several trees below the same path. -/
def leavesOf (above : List Text) : List UseTree → List (List Text)
  | [] => []
  | tree :: trees => leaves above tree ++ leavesOf above trees

end

/-- Characters that have a meaning of their own in a statement. -/
def marks : Text :=
  [',', '{', '}', ';', ':', '\\', '\'', '"']

/-- A word of a path, such as an identifier: it holds no white space and no mark. -/
structure IsWord (word : Text) : Prop where
  ne_nil : word ≠ []
  blank : ∀ c ∈ word, isBlank c = false
  mark : ∀ c ∈ word, c ∉ marks

instance (word : Text) : Decidable (IsWord word) :=
  decidable_of_iff (word ≠ [] ∧ word.all (fun c => !isBlank c) = true ∧ word.all (fun c => decide (c ∉ marks)) = true)
    ⟨fun h => ⟨h.1, by simpa using h.2.1, by simpa using h.2.2⟩,
      fun h => ⟨h.ne_nil, by simpa using h.blank, by simpa using h.mark⟩⟩

/-- Another name behind a path. -/
def renamed : Option Text → Text
  | none => []
  | some name => " as ".toList ++ name

/-- A path in front of a group: each word with a separator behind it. -/
def stem (separator : Text) (words : List Text) : Text :=
  words.flatMap (· ++ separator)

mutual

/-- The text is a way to write the tree. -/
inductive Written (separator : Text) : UseTree → Text → Prop where
  | path {words : List Text} {alias? : Option Text} (hne : words ≠ []) (hself : words ≠ [selfWord])
      (hwords : ∀ word ∈ words, IsWord word) (halias : ∀ name ∈ alias?, IsWord name) :
      Written separator (.path words alias?) (Text.join separator words ++ renamed alias?)
  | all {words : List Text} (hwords : ∀ word ∈ words, IsWord word) :
      Written separator (.all words) (stem separator words ++ star)
  | self {alias? : Option Text} (halias : ∀ name ∈ alias?, IsWord name) :
      Written separator (.self alias?) (selfWord ++ renamed alias?)
  | group {words : List Text} {trees : List UseTree} {inside : Text} (hwords : ∀ word ∈ words, IsWord word)
      (hinside : WrittenIn separator trees inside) :
      Written separator (.group words trees) (stem separator words ++ '{' :: (inside ++ ['}']))

/-- The text is a way to write the trees between the braces of a group. There may be a comma behind the last tree. -/
inductive WrittenIn (separator : Text) : List UseTree → Text → Prop where
  | none {fill : Text} (hfill : Text.Blank fill) : WrittenIn separator [] fill
  | last {before after text : Text} {tree : UseTree} (hbefore : Text.Blank before)
      (htree : Written separator tree text) (hafter : Text.Blank after) :
      WrittenIn separator [tree] (before ++ (text ++ after))
  | cons {before after text rest : Text} {tree : UseTree} {trees : List UseTree} (hbefore : Text.Blank before)
      (htree : Written separator tree text) (hafter : Text.Blank after) (hrest : WrittenIn separator trees rest) :
      WrittenIn separator (tree :: trees) (before ++ (text ++ after) ++ ',' :: rest)

end

section Words

variable {separator : Text} {words above : List Text} {c : Char}

/-- A separator is made of marks that no word holds and that mean nothing in a group. -/
structure IsSeparator (separator : Text) : Prop where
  ne_nil : separator ≠ []
  mark : ∀ c ∈ separator, c = ':' ∨ c = '\\'

/-- Characters of paths: no white space, comma or brace. -/
def Clear (t : Text) : Prop :=
  ∀ c ∈ t, isBlank c = false ∧ c ≠ ',' ∧ c ≠ '{' ∧ c ≠ '}'

theorem IsWord.clear {word : Text} (hword : IsWord word) : Clear word := by
  intro c hc
  have hmark := hword.mark c hc
  simp only [marks, List.mem_cons, not_or] at hmark
  exact ⟨hword.blank c hc, hmark.1, hmark.2.1, hmark.2.2.1⟩

theorem IsSeparator.clear (hsep : IsSeparator separator) : Clear separator := by
  intro c hc
  rcases hsep.mark c hc with rfl | rfl
  · decide
  · decide

theorem IsSeparator.not_mem_word (hsep : IsSeparator separator) {word : Text} (hword : IsWord word) (hc : c ∈ word) :
    c ∉ separator := by
  intro hmem
  apply hword.mark c hc
  rcases hsep.mark c hmem with rfl | rfl
  · decide
  · decide

theorem isWord_star : IsWord star := by decide

theorem isWord_selfWord : IsWord selfWord := by decide

theorem stem_append (separator : Text) (words more : List Text) :
    stem separator (words ++ more) = stem separator words ++ stem separator more :=
  List.flatMap_append

theorem join_append {more : List Text} (hmore : more ≠ []) (words : List Text) :
    Text.join separator (words ++ more) = stem separator words ++ Text.join separator more := by
  induction words with
  | nil => rfl
  | cons word words ih =>
    rw [List.cons_append, Text.join_cons (List.append_ne_nil_of_right_ne_nil words hmore), ih, stem, stem,
      List.flatMap_cons, List.append_assoc, List.append_assoc, List.append_assoc]

theorem stem_eq_join_append (hne : words ≠ []) : stem separator words = Text.join separator words ++ separator := by
  obtain rfl | ⟨front, word, rfl⟩ := List.eq_nil_or_concat words
  · exact absurd rfl hne
  · rw [List.concat_eq_append, stem_append, join_append (List.cons_ne_nil word []), List.append_assoc]
    simp [stem, Text.join]

theorem clear_stem (hsep : IsSeparator separator) (hwords : ∀ word ∈ words, IsWord word) :
    Clear (stem separator words) := by
  intro c hc
  obtain ⟨word, hword, hc⟩ := List.mem_flatMap.1 hc
  rcases List.mem_append.1 hc with hc | hc
  · exact (hwords word hword).clear c hc
  · exact hsep.clear c hc

theorem clear_join (hsep : IsSeparator separator) (hwords : ∀ word ∈ words, IsWord word) :
    Clear (Text.join separator words) := by
  intro c hc
  by_cases hne : words = []
  · subst hne
    contradiction
  · apply clear_stem hsep hwords c
    rw [stem_eq_join_append hne]
    exact List.mem_append_left separator hc

/-- A path ends with a character that is not in the separator. -/
theorem exists_join_eq (hsep : IsSeparator separator) (hne : words ≠ []) (hwords : ∀ word ∈ words, IsWord word) :
    ∃ front c, Text.join separator words = front ++ [c] ∧ c ∉ separator := by
  obtain rfl | ⟨front, word, rfl⟩ := List.eq_nil_or_concat words
  · exact absurd rfl hne
  · have hword : IsWord word := hwords word (by simp)
    obtain rfl | ⟨begun, c, rfl⟩ := List.eq_nil_or_concat word
    · exact absurd rfl hword.ne_nil
    · refine ⟨stem separator front ++ begun, c, ?_, hsep.not_mem_word hword (by simp)⟩
      rw [List.concat_eq_append, join_append (List.cons_ne_nil _ []), Text.join, List.concat_eq_append,
        List.append_assoc]

theorem join_ne_nil (hsep : IsSeparator separator) (hne : words ≠ []) (hwords : ∀ word ∈ words, IsWord word) :
    Text.join separator words ≠ [] := by
  obtain ⟨front, c, hjoin, -⟩ := exists_join_eq hsep hne hwords
  rw [hjoin]
  exact List.append_ne_nil_of_right_ne_nil front (List.cons_ne_nil c [])

theorem Clear.solid {t : Text} (ht : Clear t) (hne : t ≠ []) : Text.Solid t :=
  Text.solid_of_forall hne fun c hc => (ht c hc).1

end Words

section Paths

variable {separator t : Text} {words above : List Text}

theorem stripAll_eq_self {opening : Text} (ht : ¬ opening <+: t) : Text.stripAll opening t = t := by
  rw [Text.stripAll]
  split
  · rfl
  · next rest hstrip => exact absurd ⟨rest, (Text.strip?_eq_some_iff.1 hstrip).symm⟩ ht

theorem stripAll_append {opening : Text} (hne : opening ≠ []) (t : Text) :
    Text.stripAll opening (opening ++ t) = Text.stripAll opening t := by
  rw [Text.stripAll]
  split
  · next hstrip =>
    rw [Text.strip?_append] at hstrip
    contradiction
  · next rest hstrip =>
    obtain rfl : t = rest := List.append_cancel_left (Text.strip?_eq_some_iff.1 hstrip)
    rw [dif_neg hne]

/-- Nothing is stripped from the end of a path. -/
theorem stripEndAll_join (hsep : IsSeparator separator) (hwords : ∀ word ∈ words, IsWord word) :
    Text.stripEndAll separator (Text.join separator words) = Text.join separator words := by
  have hnone : ¬ separator.reverse <+: (Text.join separator words).reverse := by
    rw [List.reverse_prefix]
    intro hsuffix
    by_cases hne : words = []
    · subst hne
      exact hsep.ne_nil (List.suffix_nil.1 hsuffix)
    · obtain ⟨front, c, hjoin, hc⟩ := exists_join_eq hsep hne hwords
      obtain rfl | ⟨begun, d, rfl⟩ := List.eq_nil_or_concat separator
      · exact hsep.ne_nil rfl
      · obtain ⟨rest, hrest⟩ := hsuffix
        rw [hjoin, List.concat_eq_append, ← List.append_assoc] at hrest
        obtain rfl := List.singleton_inj.1 (List.append_inj' hrest rfl).2
        exact hc (by simp)
  rw [Text.stripEndAll, stripAll_eq_self hnone, List.reverse_reverse]

/-- Of a path in front of a group the last separator is stripped. -/
theorem stripEndAll_stem (hsep : IsSeparator separator) (hwords : ∀ word ∈ words, IsWord word) :
    Text.stripEndAll separator (stem separator words) = Text.join separator words := by
  by_cases hne : words = []
  · subst hne
    exact stripEndAll_join hsep hwords
  · have hreverse : separator.reverse ≠ [] := mt List.reverse_eq_nil_iff.1 hsep.ne_nil
    rw [stem_eq_join_append hne, Text.stripEndAll, List.reverse_append, stripAll_append hreverse]
    exact stripEndAll_join hsep hwords

theorem trim_eq_self_of_clear (ht : Clear t) : Text.trim t = t := by
  by_cases hne : t = []
  · rw [hne]
    rfl
  · exact (ht.solid hne).trim

/-- A path below another one is the path of all their words. -/
theorem joinPath_eq (hsep : IsSeparator separator) (habove : ∀ word ∈ above, IsWord word)
    (hwords : ∀ word ∈ words, IsWord word) {head : Text} (hclear : Clear head)
    (hhead : Text.stripEndAll separator head = Text.join separator words) :
    joinPath separator (Text.join separator above) head = Text.join separator (above ++ words) := by
  rw [joinPath]
  simp only [trim_eq_self_of_clear hclear, hhead]
  by_cases hnone : above = []
  · subst hnone
    rfl
  · rw [if_neg (by simpa using join_ne_nil hsep hnone habove)]
    by_cases hempty : words = []
    · subst hempty
      rw [List.append_nil]
      rfl
    · rw [if_neg (by simpa using join_ne_nil hsep hempty hwords), join_append hempty, stem_eq_join_append hnone]

end Paths

section Pieces

variable {separator s t : Text} {depth : Int}

/-- No piece of a list ends within the text, where `depth` braces are open: it becomes a part of the piece in which
it begins. -/
def Whole (depth : Int) (t : Text) : Prop :=
  ∀ rest, splitTopLevel depth (t ++ rest) = (splitTopLevel depth rest).modifyHead (t ++ ·)

theorem splitTopLevel_ne_nil (depth : Int) (t : Text) : splitTopLevel depth t ≠ [] := by
  cases t with
  | nil => simp [splitTopLevel]
  | cons c t =>
    simp only [splitTopLevel]
    split
    · exact List.cons_ne_nil _ _
    · split
      · exact List.cons_ne_nil _ _
      · exact List.cons_ne_nil _ _

/-- A character that ends no piece belongs to the first piece. -/
theorem splitTopLevel_cons {c : Char} (hc : c ≠ ',' ∨ depth ≠ 0) (t : Text) :
    splitTopLevel depth (c :: t) =
      (splitTopLevel (if c = '{' then depth + 1 else if c = '}' then depth - 1 else depth) t).modifyHead (c :: ·) := by
  have hend : ¬ (decide (c = ',') && depth == 0) = true := by
    rw [Bool.and_eq_true, decide_eq_true_iff, beq_iff_eq]
    rintro ⟨rfl, rfl⟩
    exact hc.elim (fun hne => hne rfl) (fun hne => hne rfl)
  simp only [splitTopLevel, if_neg hend]
  cases hpieces : splitTopLevel (if c = '{' then depth + 1 else if c = '}' then depth - 1 else depth) t with
  | nil => exact absurd hpieces (splitTopLevel_ne_nil _ t)
  | cons piece pieces => rfl

theorem whole_nil (depth : Int) : Whole depth [] := by
  intro rest
  rw [List.nil_append]
  cases splitTopLevel depth rest with
  | nil => rfl
  | cons piece pieces => rfl

theorem Whole.append (hs : Whole depth s) (ht : Whole depth t) : Whole depth (s ++ t) := by
  intro rest
  rw [List.append_assoc, hs, ht, List.modifyHead_modifyHead]
  congr 1
  funext piece
  simp

theorem whole_singleton {c : Char} (hc : c ≠ ',' ∨ depth ≠ 0) (hopen : c ≠ '{') (hclose : c ≠ '}') :
    Whole depth [c] := by
  intro rest
  rw [List.singleton_append, splitTopLevel_cons hc, if_neg hopen, if_neg hclose]
  rfl

theorem whole_of_forall (ht : ∀ c ∈ t, c ≠ ',' ∧ c ≠ '{' ∧ c ≠ '}') (depth : Int) : Whole depth t := by
  induction t with
  | nil => exact whole_nil depth
  | cons c t ih =>
    obtain ⟨⟨hcomma, hopen, hclose⟩, ht⟩ := List.forall_mem_cons.1 ht
    exact (whole_singleton (.inl hcomma) hopen hclose).append (ih ht)

theorem Clear.whole (ht : Clear t) (depth : Int) : Whole depth t :=
  whole_of_forall (fun c hc => (ht c hc).2) depth

theorem whole_blank (ht : Text.Blank t) (depth : Int) : Whole depth t := by
  apply whole_of_forall
  intro c hc
  have hblank := ht c hc
  refine ⟨?_, ?_, ?_⟩ <;> (rintro rfl; exact absurd hblank (by decide))

theorem Whole.filled (ht : Whole depth t) {before after : Text} (hbefore : Text.Blank before)
    (hafter : Text.Blank after) : Whole depth (before ++ (t ++ after)) :=
  (whole_blank hbefore depth).append (ht.append (whole_blank hafter depth))

/-- Braces around a text that is whole between them make it whole outside. -/
theorem Whole.braces (ht : Whole (depth + 1) t) : Whole depth ('{' :: (t ++ ['}'])) := by
  intro rest
  have hopen : '{' ≠ ',' ∨ depth ≠ 0 := .inl (by decide)
  have hclose : '}' ≠ ',' ∨ depth + 1 ≠ 0 := .inl (by decide)
  rw [List.cons_append, splitTopLevel_cons hopen, if_pos rfl, List.append_assoc, ht, List.singleton_append,
    splitTopLevel_cons hclose, if_neg (by decide), if_pos rfl, List.modifyHead_modifyHead, List.modifyHead_modifyHead,
    Int.add_sub_cancel]
  congr 1
  funext piece
  simp

theorem splitTopLevel_whole (ht : Whole 0 t) : splitTopLevel 0 t = [t] := by
  have hpieces := ht []
  rw [List.append_nil] at hpieces
  rw [hpieces]
  simp [splitTopLevel]

/-- A comma behind a whole text ends a piece. -/
theorem splitTopLevel_whole_comma (ht : Whole 0 t) (rest : Text) :
    splitTopLevel 0 (t ++ ',' :: rest) = t :: splitTopLevel 0 rest := by
  have hcomma : splitTopLevel 0 (',' :: rest) = [] :: splitTopLevel 0 rest := rfl
  rw [ht, hcomma, List.modifyHead_cons, List.append_nil]

end Pieces

section Texts

variable {separator text : Text} {alias? : Option Text} {tree : UseTree} {trees : List UseTree}

theorem whole_renamed (halias : ∀ name ∈ alias?, IsWord name) (depth : Int) : Whole depth (renamed alias?) := by
  cases alias? with
  | none => exact whole_nil depth
  | some name =>
    have has : Whole depth " as ".toList := whole_of_forall (by simp) depth
    exact has.append ((halias name rfl).clear.whole depth)

mutual

/-- Outside of braces a list has no pieces that end within a tree. -/
theorem whole_written {separator text : Text} {tree : UseTree} {depth : Int} (hsep : IsSeparator separator)
    (htree : Written separator tree text) (hdepth : 0 ≤ depth) : Whole depth text := by
  cases htree with
  | path _ _ hwords halias => exact ((clear_join hsep hwords).whole depth).append (whole_renamed halias depth)
  | all hwords => exact ((clear_stem hsep hwords).whole depth).append (isWord_star.clear.whole depth)
  | self halias => exact (isWord_selfWord.clear.whole depth).append (whole_renamed halias depth)
  | group hwords hinside =>
    have hwhole := whole_writtenIn hsep hinside (Int.lt_add_one_of_le hdepth)
    exact ((clear_stem hsep hwords).whole depth).append hwhole.braces

theorem whole_writtenIn {separator text : Text} {trees : List UseTree} {depth : Int} (hsep : IsSeparator separator)
    (htrees : WrittenIn separator trees text) (hdepth : 0 < depth) : Whole depth text := by
  cases htrees with
  | none hfill => exact whole_blank hfill depth
  | last hbefore htree hafter =>
    exact (whole_written hsep htree (Int.le_of_lt hdepth)).filled hbefore hafter
  | cons hbefore htree hafter hrest =>
    have hwhole := whole_written hsep htree (Int.le_of_lt hdepth)
    have hcomma : Whole depth [','] := whole_singleton (.inr (Int.ne_of_gt hdepth)) (by decide) (by decide)
    exact (hwhole.filled hbefore hafter).append (hcomma.append (whole_writtenIn hsep hrest hdepth))

end

theorem endsSolid_renamed {t : Text} (ht : Text.EndsSolid t) (halias : ∀ name ∈ alias?, IsWord name) :
    Text.EndsSolid (t ++ renamed alias?) := by
  cases alias? with
  | none => rwa [renamed, List.append_nil]
  | some name =>
    have hname := (halias name rfl).clear.solid (halias name rfl).ne_nil
    exact (hname.ends.append _).append _

/-- A tree begins and ends with characters that are not white space. -/
theorem Written.solid (hsep : IsSeparator separator) (htree : Written separator tree text) : Text.Solid text := by
  cases htree with
  | path hne _ hwords halias =>
    have hpath := (clear_join hsep hwords).solid (join_ne_nil hsep hne hwords)
    exact ⟨hpath.starts.append _, endsSolid_renamed hpath.ends halias⟩
  | @all words hwords =>
    have hclear : Clear (stem separator words ++ star) :=
      List.forall_mem_append.2 ⟨clear_stem hsep hwords, isWord_star.clear⟩
    exact hclear.solid (List.append_ne_nil_of_right_ne_nil _ isWord_star.ne_nil)
  | self halias =>
    have hself := isWord_selfWord.clear.solid isWord_selfWord.ne_nil
    exact ⟨hself.starts.append _, endsSolid_renamed hself.ends halias⟩
  | @group words trees inside hwords hinside =>
    refine ⟨?_, ⟨stem separator words ++ '{' :: inside, '}', by simp, by decide⟩⟩
    by_cases hne : stem separator words = []
    · rw [hne]
      exact ⟨'{', inside ++ ['}'], rfl, by decide⟩
    · exact ((clear_stem hsep hwords).solid hne).starts.append _

end Texts

section Expansion

variable {separator path t text : Text} {above : List Text} {alias? : Option Text} {tree : UseTree}
  {trees : List UseTree}

theorem expandTree_blank (ht : Text.Blank t) : expandTree separator path t = [] := by
  rw [expandTree, Text.trim_blank ht]
  rfl

theorem outerBraces?_group {head : Text} (hhead : '{' ∉ head) (inside : Text) :
    outerBraces? (head ++ '{' :: (inside ++ ['}'])) = some (head, some inside) := by
  have hclose : Text.cut? ['}'] (inside ++ ['}']).reverse = some ([], inside.reverse) := by
    rw [List.reverse_append]
    exact Text.cut?_append_cons List.not_mem_nil _
  rw [outerBraces?, Text.cut?_append_cons hhead]
  simp only [hclose, List.reverse_reverse]

/-- A group is expanded piece by piece below its path. -/
theorem expandTree_group {head inside : Text} (htrim : Text.trim t = head ++ '{' :: (inside ++ ['}']))
    (hhead : '{' ∉ head) :
    expandTree separator path t =
      (splitTopLevel 0 inside).flatMap (expandTree separator (joinPath separator path head)) := by
  have hne : (Text.trim t).isEmpty = false := by
    rw [htrim]
    simp
  have hbraces : outerBraces? (Text.trim t) = some (head, some inside) := by rw [htrim, outerBraces?_group hhead]
  rw [expandTree]
  simp only [hne, Bool.false_eq_true, if_false]
  split
  · next heq =>
    rw [hbraces] at heq
    obtain ⟨rfl, rfl⟩ : _ ∧ _ := by simpa using heq
    simp
  · next heq => simp [hbraces] at heq
  · next heq => simp [hbraces] at heq

theorem upTo_renamed {leaf : Text} (hleaf : Clear leaf) : upTo " as ".toList (leaf ++ renamed alias?) = leaf := by
  have hspace : ' ' ∉ leaf := fun hmem => absurd (hleaf _ hmem).1 (by decide)
  have has : " as ".toList = ' ' :: ['a', 's', ' '] := rfl
  cases alias? with
  | none =>
    rw [renamed, List.append_nil, upTo, has, Text.cut?_eq_none hspace]
    rfl
  | some name =>
    have hhere : Text.cut? " as ".toList (" as ".toList ++ name) = some ([], name) := rfl
    rw [renamed, upTo, has, Text.cut?_append hspace, ← has, hhere]
    simp

/-- A leaf is its path below the path of the groups around it, without its other name. -/
theorem expandTree_leaf {leaf : Text} (htrim : Text.trim t = leaf ++ renamed alias?) (hleaf : Clear leaf)
    (hne : leaf ≠ []) (halias : ∀ name ∈ alias?, IsWord name) :
    expandTree separator path t =
      if leaf = selfWord then if path.isEmpty then [] else [path] else [joinPath separator path leaf] := by
  have hempty : (Text.trim t).isEmpty = false := by
    rw [htrim]
    simp [hne]
  have hopen : '{' ∉ renamed alias? := by
    cases alias? with
    | none => exact List.not_mem_nil
    | some name =>
      rw [renamed, List.mem_append, not_or]
      exact ⟨by decide, fun hmem => ((halias name rfl).clear _ hmem).2.2.1 rfl⟩
  have hbraces : outerBraces? (Text.trim t) = none := by
    have hnone : '{' ∉ leaf ++ renamed alias? := by
      rw [List.mem_append, not_or]
      exact ⟨fun hmem => (hleaf _ hmem).2.2.1 rfl, hopen⟩
    rw [htrim, outerBraces?, Text.cut?_eq_none hnone]
  have hupTo : Text.trim (upTo " as ".toList (Text.trim t)) = leaf := by
    rw [htrim, upTo_renamed hleaf, trim_eq_self_of_clear hleaf]
  rw [expandTree]
  simp only [hempty, hupTo, Bool.false_eq_true, if_false]
  split
  · next heq => simp [hbraces] at heq
  · next heq => simp [hbraces] at heq
  · rfl

/-- Only a path of one word is a word. -/
theorem eq_singleton_of_join {words : List Text} (hsep : IsSeparator separator) (hne : words ≠ []) {word : Text}
    (hword : IsWord word) (hjoin : Text.join separator words = word) : words = [word] := by
  obtain ⟨first, rest, rfl⟩ := List.exists_cons_of_ne_nil hne
  cases rest with
  | nil => exact congrArg (· :: []) hjoin
  | cons second rest =>
    obtain ⟨c, marks, rfl⟩ := List.exists_cons_of_ne_nil hsep.ne_nil
    have hmem : c ∈ word := by
      rw [← hjoin, Text.join_cons (List.cons_ne_nil second rest)]
      simp
    exact absurd List.mem_cons_self (hsep.not_mem_word hword hmem)

/-- A path is expanded to itself below the path of the groups around it. -/
theorem expandTree_path {words : List Text} (hsep : IsSeparator separator) (habove : ∀ word ∈ above, IsWord word)
    (hne : words ≠ []) (hself : words ≠ [selfWord]) (hwords : ∀ word ∈ words, IsWord word)
    (halias : ∀ name ∈ alias?, IsWord name) (htrim : Text.trim t = Text.join separator words ++ renamed alias?) :
    expandTree separator (Text.join separator above) t = [Text.join separator (above ++ words)] := by
  have hleaf : Text.join separator words ≠ selfWord := mt (eq_singleton_of_join hsep hne isWord_selfWord) hself
  rw [expandTree_leaf htrim (clear_join hsep hwords) (join_ne_nil hsep hne hwords) halias, if_neg hleaf,
    joinPath_eq hsep habove hwords (clear_join hsep hwords) (stripEndAll_join hsep hwords)]

-- a tree and the inside of a group, each with the other: the pieces of the inside are the trees of the group
mutual

/-- What is written for a tree is expanded to the paths to its leaves. -/
theorem expandTree_written {separator text before after : Text} {above : List Text} {tree : UseTree}
    (hsep : IsSeparator separator) (habove : ∀ word ∈ above, IsWord word) (htree : Written separator tree text)
    (hbefore : Text.Blank before) (hafter : Text.Blank after) :
    expandTree separator (Text.join separator above) (before ++ (text ++ after)) =
      (tree.leaves above).map (Text.join separator) := by
  have htrim := (htree.solid hsep).trim_within hbefore hafter
  cases htree with
  | path hne hself hwords halias => exact expandTree_path hsep habove hne hself hwords halias htrim
  | @all words hwords =>
    have hall : ∀ word ∈ words ++ [star], IsWord word := by
      rw [List.forall_mem_append, List.forall_mem_singleton]
      exact ⟨hwords, isWord_star⟩
    have hself : words ++ [star] ≠ [selfWord] := by
      intro heq
      have hstar : star ∈ [selfWord] := heq ▸ List.mem_append_right words (List.mem_singleton_self star)
      exact absurd hstar (by decide)
    have hstar : stem separator words ++ star = Text.join separator (words ++ [star]) ++ renamed none := by
      rw [join_append (List.cons_ne_nil star []), renamed, List.append_nil, Text.join]
    exact expandTree_path hsep habove (List.append_ne_nil_of_right_ne_nil words (List.cons_ne_nil star [])) hself hall
      (by simp) (htrim.trans hstar)
  | self halias =>
    rw [expandTree_leaf htrim isWord_selfWord.clear isWord_selfWord.ne_nil halias, if_pos rfl, leaves]
    by_cases hnone : above = []
    · subst hnone
      rfl
    · rw [if_neg (by simpa using join_ne_nil hsep hnone habove), if_neg (by simpa using hnone)]
      rfl
  | @group words trees inside hwords hinside =>
    have hopen : '{' ∉ stem separator words := fun hmem => (clear_stem hsep hwords _ hmem).2.2.1 rfl
    have hall : ∀ word ∈ above ++ words, IsWord word := List.forall_mem_append.2 ⟨habove, hwords⟩
    rw [expandTree_group htrim hopen,
      joinPath_eq hsep habove hwords (clear_stem hsep hwords) (stripEndAll_stem hsep hwords),
      flatMap_expandTree_writtenIn hsep hall hinside, leaves]

theorem flatMap_expandTree_writtenIn {separator text : Text} {above : List Text} {trees : List UseTree}
    (hsep : IsSeparator separator) (habove : ∀ word ∈ above, IsWord word)
    (htrees : WrittenIn separator trees text) :
    (splitTopLevel 0 text).flatMap (expandTree separator (Text.join separator above)) =
      (leavesOf above trees).map (Text.join separator) := by
  cases htrees with
  | none hfill =>
    rw [splitTopLevel_whole (whole_blank hfill 0), List.flatMap_singleton, expandTree_blank hfill, leavesOf]
    rfl
  | last hbefore htree hafter =>
    have hwhole := (whole_written hsep htree (Int.le_refl 0)).filled hbefore hafter
    rw [splitTopLevel_whole hwhole, List.flatMap_singleton, expandTree_written hsep habove htree hbefore hafter,
      leavesOf, leavesOf, List.append_nil]
  | cons hbefore htree hafter hrest =>
    have hwhole := (whole_written hsep htree (Int.le_refl 0)).filled hbefore hafter
    rw [splitTopLevel_whole_comma hwhole, List.flatMap_cons, expandTree_written hsep habove htree hbefore hafter,
      flatMap_expandTree_writtenIn hsep habove hrest, leavesOf, List.map_append]

end

end Expansion

section Leaves

mutual

/-- Every leaf has a path of at least one word. -/
theorem words_of_mem_leaves {separator text : Text} {above : List Text} {tree : UseTree}
    (habove : ∀ word ∈ above, IsWord word) (htree : Written separator tree text) :
    ∀ leaf ∈ tree.leaves above, leaf ≠ [] ∧ ∀ word ∈ leaf, IsWord word := by
  intro leaf hleaf
  cases htree with
  | path hne _ hwords _ =>
    rw [leaves, List.mem_singleton] at hleaf
    subst hleaf
    exact ⟨List.append_ne_nil_of_right_ne_nil above hne, List.forall_mem_append.2 ⟨habove, hwords⟩⟩
  | @all words hwords =>
    rw [leaves, List.mem_singleton] at hleaf
    subst hleaf
    refine ⟨by simp, ?_⟩
    rw [List.forall_mem_append, List.forall_mem_append, List.forall_mem_singleton]
    exact ⟨habove, hwords, isWord_star⟩
  | self _ =>
    rw [leaves] at hleaf
    split at hleaf
    · contradiction
    · next hne =>
      obtain rfl := List.mem_singleton.1 hleaf
      exact ⟨by simpa using hne, habove⟩
  | group hwords hinside =>
    rw [leaves] at hleaf
    exact words_of_mem_leavesOf (List.forall_mem_append.2 ⟨habove, hwords⟩) hinside leaf hleaf

theorem words_of_mem_leavesOf {separator text : Text} {above : List Text} {trees : List UseTree}
    (habove : ∀ word ∈ above, IsWord word) (htrees : WrittenIn separator trees text) :
    ∀ leaf ∈ leavesOf above trees, leaf ≠ [] ∧ ∀ word ∈ leaf, IsWord word := by
  intro leaf hleaf
  cases htrees with
  | none _ =>
    rw [leavesOf] at hleaf
    contradiction
  | last _ htree _ =>
    rw [leavesOf, leavesOf, List.append_nil] at hleaf
    exact words_of_mem_leaves habove htree leaf hleaf
  | cons _ htree _ hrest =>
    rw [leavesOf, List.mem_append] at hleaf
    rcases hleaf with hleaf | hleaf
    · exact words_of_mem_leaves habove htree leaf hleaf
    · exact words_of_mem_leavesOf habove hrest leaf hleaf

end

/-- The name of a leaf needs no trimming. -/
theorem solid_of_mem_leaves {separator text name : Text} {tree : UseTree} (hsep : IsSeparator separator)
    (htree : Written separator tree text) (hname : name ∈ (tree.leaves []).map (Text.join separator)) :
    Text.Solid name := by
  obtain ⟨leaf, hleaf, rfl⟩ := List.mem_map.1 hname
  obtain ⟨hne, hwords⟩ := words_of_mem_leaves (by simp) htree leaf hleaf
  exact (clear_join hsep hwords).solid (join_ne_nil hsep hne hwords)

end Leaves

end UseTree

end Imports

end Outline
