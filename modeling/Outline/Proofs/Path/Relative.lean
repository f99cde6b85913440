import Outline.Proofs.Path.Pieces

namespace Outline

namespace Text

variable {p : Char → Bool} {s t : Text}

theorem splitWhere_ne_nil (p : Char → Bool) (t : Text) : splitWhere p t ≠ [] := by
  cases t with
  | nil => exact List.cons_ne_nil _ _
  | cons c t =>
    rw [splitWhere]
    split
    · exact List.cons_ne_nil _ _
    · split <;> exact List.cons_ne_nil _ _

theorem splitWhere_cons_of_pos {c : Char} (hc : p c = true) (t : Text) :
    splitWhere p (c :: t) = [] :: splitWhere p t := by
  rw [splitWhere, if_pos hc]

theorem splitWhere_cons_of_neg {c : Char} (hc : p c = false) (t : Text) :
    splitWhere p (c :: t) = (splitWhere p t).modifyHead (c :: ·) := by
  rw [splitWhere, if_neg (by simp [hc])]
  obtain ⟨piece, pieces, hpieces⟩ := List.exists_cons_of_ne_nil (splitWhere_ne_nil p t)
  rw [hpieces]
  rfl

/-- A character to split at ends the pieces before it. -/
theorem splitWhere_append_cons {c : Char} (hc : p c = true) (s t : Text) :
    splitWhere p (s ++ c :: t) = splitWhere p s ++ splitWhere p t := by
  induction s with
  | nil => exact splitWhere_cons_of_pos hc t
  | cons d s ih =>
    rw [List.cons_append]
    cases hd : p d with
    | true => rw [splitWhere_cons_of_pos hd, splitWhere_cons_of_pos hd, ih, List.cons_append]
    | false =>
      rw [splitWhere_cons_of_neg hd, splitWhere_cons_of_neg hd, ih]
      obtain ⟨piece, pieces, hpieces⟩ := List.exists_cons_of_ne_nil (splitWhere_ne_nil p s)
      rw [hpieces, List.cons_append, List.modifyHead_cons, List.modifyHead_cons, List.cons_append]

/-- The pieces of a text are made of its characters. -/
theorem mem_iff_of_splitWhere {c : Char} (hc : p c = false) : c ∈ t ↔ ∃ piece ∈ splitWhere p t, c ∈ piece := by
  induction t with
  | nil => simp [splitWhere]
  | cons d t ih =>
    obtain ⟨piece, pieces, hpieces⟩ := List.exists_cons_of_ne_nil (splitWhere_ne_nil p t)
    rw [List.mem_cons, ih]
    cases hd : p d with
    | true =>
      have hne : c ≠ d := by
        rintro rfl
        exact absurd (hc.symm.trans hd) Bool.false_ne_true
      simp [splitWhere_cons_of_pos hd, hne]
    | false => simp [splitWhere_cons_of_neg hd, hpieces, or_assoc]

end Text

namespace Path

variable {base path directory : Text} {pieces way : List Text}

/-- What a path begins at, apart from names: the root, the current directory or nothing. -/
def anchor (path : Text) : List Component :=
  if path.startsWhere (· == '/') then [.root]
  else if (path.splitWhere (· == '/')).head? = some ['.'] then [.current]
  else []

/-- The components that pieces between slashes stand for. -/
def steps (pieces : List Text) : List Component :=
  (pieces.filter fun piece => !isIdle piece).map Component.ofPiece

theorem components_eq (path : Text) : components path = anchor path ++ steps (path.splitWhere (· == '/')) := by
  have hkept : (fun piece : Text => decide (piece ≠ []) && decide (piece ≠ ['.'])) = fun piece => !isIdle piece := by
    funext piece
    by_cases hempty : piece = [] <;> by_cases hcurrent : piece = ['.'] <;> simp [isIdle, hempty, hcurrent]
  rw [components, anchor, steps, ← hkept]
  split
  · rfl
  · split <;> rfl

section Steps

@[simp]
theorem steps_nil : steps [] = [] := rfl

theorem steps_append (pieces others : List Text) : steps (pieces ++ others) = steps pieces ++ steps others := by
  rw [steps, List.filter_append, List.map_append, steps, steps]

theorem steps_cons_of_idle {piece : Text} (hidle : isIdle piece = true) (pieces : List Text) :
    steps (piece :: pieces) = steps pieces := by
  rw [steps, List.filter_cons_of_neg (by simp [hidle]), steps]

theorem steps_cons_of_not_idle {piece : Text} (hidle : isIdle piece = false) (pieces : List Text) :
    steps (piece :: pieces) = Component.ofPiece piece :: steps pieces := by
  rw [steps, List.filter_cons_of_pos (by simp [hidle]), List.map_cons, steps]

theorem steps_dropWhile_isIdle (pieces : List Text) : steps (pieces.dropWhile isIdle) = steps pieces := by
  induction pieces with
  | nil => rfl
  | cons piece pieces ih =>
    cases hidle : isIdle piece with
    | true => rw [List.dropWhile_cons_of_pos hidle, ih, steps_cons_of_idle hidle]
    | false => rw [List.dropWhile_cons_of_neg (by simp [hidle])]

theorem steps_reverse (pieces : List Text) : steps pieces.reverse = (steps pieces).reverse := by
  rw [steps, List.filter_reverse, List.map_reverse, steps]

theorem steps_dropIdleEnd (pieces : List Text) : steps (dropIdleEnd pieces) = steps pieces := by
  rw [dropIdleEnd, steps_reverse, steps_dropWhile_isIdle, steps_reverse, List.reverse_reverse]

theorem steps_dropNamed (count : Nat) (pieces : List Text) :
    steps (dropNamed count pieces) = (steps pieces).drop count := by
  induction pieces generalizing count with
  | nil => cases count <;> rfl
  | cons piece pieces ih =>
    cases count with
    | zero => rfl
    | succ count =>
      rw [dropNamed]
      cases hidle : isIdle piece with
      | true => rw [if_pos rfl, ih, steps_cons_of_idle hidle]
      | false => rw [if_neg Bool.false_ne_true, ih, steps_cons_of_not_idle hidle, List.drop_succ_cons]

theorem dropIdleEnd_cons_of_not_idle {piece : Text} (hidle : isIdle piece = false) (pieces : List Text) :
    dropIdleEnd (piece :: pieces) = piece :: dropIdleEnd pieces := by
  have hdrop : [piece].dropWhile isIdle = [piece] := List.dropWhile_cons_of_neg (by simp [hidle])
  rw [dropIdleEnd, dropIdleEnd, List.reverse_cons, List.dropWhile_append, hdrop]
  split
  · next hnone => rw [List.isEmpty_iff.1 hnone]; rfl
  · rw [List.reverse_append, List.reverse_singleton, List.singleton_append]

theorem dropIdleEnd_sublist (pieces : List Text) : (dropIdleEnd pieces).Sublist pieces := by
  have hsublist := (List.dropWhile_sublist (l := pieces.reverse) isIdle).reverse
  rwa [List.reverse_reverse] at hsublist

theorem dropNamed_sublist (count : Nat) (pieces : List Text) : (dropNamed count pieces).Sublist pieces := by
  induction pieces generalizing count with
  | nil => cases count <;> exact .refl _
  | cons piece pieces ih =>
    cases count with
    | zero => exact .refl _
    | succ count =>
      rw [dropNamed]
      split <;> exact (ih _).cons _

end Steps

section Anchor

theorem anchor_nil : anchor [] = [] := rfl

/-- A path begins with a slash if nothing stands before its first one. -/
theorem startsWhere_slash_iff {first : Text} {rest : List Text} (hpath : path ≠ [])
    (hpieces : path.splitWhere (· == '/') = first :: rest) :
    path.startsWhere (· == '/') = true ↔ first = [] := by
  obtain ⟨c, t, rfl⟩ := List.exists_cons_of_ne_nil hpath
  by_cases hc : c = '/'
  · rw [Text.splitWhere_cons_of_pos (by simpa using hc)] at hpieces
    simp [Text.startsWhere, hc, (List.cons.inj hpieces).1.symm]
  · obtain ⟨piece, pieces, hrest⟩ := List.exists_cons_of_ne_nil (Text.splitWhere_ne_nil (· == '/') t)
    rw [Text.splitWhere_cons_of_neg (by simpa using hc), hrest, List.modifyHead_cons] at hpieces
    simp [Text.startsWhere, hc, ← (List.cons.inj hpieces).1]

/-- The first piece of a path that is not empty tells its anchor. -/
theorem anchor_eq {first : Text} {rest : List Text} (hpath : path ≠ [])
    (hpieces : path.splitWhere (· == '/') = first :: rest) :
    anchor path = if first = [] then [.root] else if first = ['.'] then [.current] else [] := by
  simp only [anchor, startsWhere_slash_iff hpath hpieces, hpieces, List.head?_cons, Option.some.injEq]

theorem isIdle_iff {piece : Text} : isIdle piece = true ↔ piece = [] ∨ piece = ['.'] := by
  rw [isIdle, Bool.or_eq_true, beq_iff_eq, beq_iff_eq]

/-- A path whose first piece is a name has no anchor. -/
theorem anchor_of_not_idle {first : Text} {rest : List Text} (hidle : isIdle first = false)
    (hpieces : path.splitWhere (· == '/') = first :: rest) : anchor path = [] := by
  obtain ⟨hempty, hcurrent⟩ := not_or.1 (isIdle_iff.not.1 (Bool.eq_false_iff.1 hidle))
  by_cases hpath : path = []
  · rw [hpath, anchor_nil]
  · rw [anchor_eq hpath hpieces, if_neg hempty, if_neg hcurrent]

/-- The component that a path begins with, by its first piece. -/
def firstComponent (first : Text) : Component :=
  if first = [] then .root else if first = ['.'] then .current else .ofPiece first

/-- The first piece of a path that is not empty gives one component, as an anchor or by itself. -/
theorem components_eq_cons {first : Text} {rest : List Text} (hpath : path ≠ [])
    (hpieces : path.splitWhere (· == '/') = first :: rest) : components path = firstComponent first :: steps rest := by
  rw [components_eq, hpieces, firstComponent]
  cases hidle : isIdle first with
  | true =>
    rw [anchor_eq hpath hpieces, steps_cons_of_idle hidle]
    rcases isIdle_iff.1 hidle with rfl | rfl <;> rfl
  | false =>
    obtain ⟨hempty, hcurrent⟩ := not_or.1 (isIdle_iff.not.1 (Bool.eq_false_iff.1 hidle))
    rw [anchor_of_not_idle hidle hpieces, steps_cons_of_not_idle hidle, if_neg hempty, if_neg hcurrent,
      List.nil_append]

/-- Only the empty path has no components. -/
theorem components_eq_nil_iff : components path = [] ↔ path = [] := by
  constructor
  · intro hnone
    by_contra hpath
    obtain ⟨first, rest, hpieces⟩ := List.exists_cons_of_ne_nil (Text.splitWhere_ne_nil (· == '/') path)
    exact List.cons_ne_nil _ _ ((components_eq_cons hpath hpieces).symm.trans hnone)
  · rintro rfl
    rfl

theorem anchor_append_slash (hdirectory : directory ≠ []) (t : Text) :
    anchor (directory ++ '/' :: t) = anchor directory := by
  obtain ⟨c, rest, rfl⟩ := List.exists_cons_of_ne_nil hdirectory
  obtain ⟨piece, pieces, hpieces⟩ := List.exists_cons_of_ne_nil (Text.splitWhere_ne_nil (· == '/') (c :: rest))
  rw [anchor, anchor, Text.splitWhere_append_cons (by rfl), hpieces]
  rfl

theorem components_append_slash (hdirectory : directory ≠ []) (t : Text) :
    components (directory ++ '/' :: t) = components directory ++ steps (t.splitWhere (· == '/')) := by
  rw [components_eq, anchor_append_slash hdirectory, Text.splitWhere_append_cons (by rfl), steps_append,
    components_eq, List.append_assoc]

/-- A path behind a directory adds what its pieces stand for, whatever its anchor. -/
theorem components_join (hdirectory : directory ≠ []) (t : Text) :
    components (join directory t) = components directory ++ steps (t.splitWhere (· == '/')) := by
  rw [join, if_neg hdirectory]
  split
  · next hlast =>
    obtain ⟨front, rfl⟩ := List.getLast?_eq_some_iff.1 hlast
    rw [List.append_assoc, List.singleton_append]
    by_cases hfront : front = []
    · subst hfront
      rw [components_eq, List.nil_append, Text.splitWhere_cons_of_pos (by rfl), steps_cons_of_idle (by rfl)]
      rfl
    · rw [components_append_slash hfront, components_append_slash hfront]
      simp [Text.splitWhere, steps, isIdle]
  · exact components_append_slash hdirectory t

end Anchor

section Texts

/-- The text between two slashes and the component that it stands for are the same. -/
theorem text_ofPiece (piece : Text) : (Component.ofPiece piece).text = piece := by
  rw [Component.ofPiece]
  split
  · next h => rw [h, Component.text]
  · rfl

theorem mem_steps_text_iff {c : Char} (hdot : c ≠ '.') :
    (∃ component ∈ steps pieces, c ∈ component.text) ↔ ∃ piece ∈ pieces, c ∈ piece := by
  have hactive : ∀ piece : Text, c ∈ piece → isIdle piece = false := by
    intro piece hmem
    have hempty : piece ≠ [] := List.ne_nil_of_mem hmem
    have hcurrent : piece ≠ ['.'] := by
      rintro rfl
      exact hdot (List.mem_singleton.1 hmem)
    simp [isIdle, hempty, hcurrent]
  simp only [steps, List.mem_map, List.mem_filter]
  constructor
  · rintro ⟨_, ⟨piece, ⟨hpiece, _⟩, rfl⟩, hmem⟩
    rw [text_ofPiece] at hmem
    exact ⟨piece, hpiece, hmem⟩
  · rintro ⟨piece, hpiece, hmem⟩
    refine ⟨_, ⟨piece, ⟨hpiece, by rw [hactive piece hmem, Bool.not_false]⟩, rfl⟩, ?_⟩
    rwa [text_ofPiece]

/-- A character other than dot and slash is in a path if it is in one of its components. -/
theorem mem_components_text_iff {c : Char} (hdot : c ≠ '.') (hslash : c ≠ '/') :
    (∃ component ∈ components path, c ∈ component.text) ↔ c ∈ path := by
  have hanchor : ∀ component ∈ anchor path, c ∉ component.text := by
    intro component hmem
    rw [anchor] at hmem
    split at hmem
    · obtain rfl := List.mem_singleton.1 hmem
      exact fun h => hslash (List.mem_singleton.1 h)
    · split at hmem
      · obtain rfl := List.mem_singleton.1 hmem
        exact fun h => hdot (List.mem_singleton.1 h)
      · cases hmem
  rw [components_eq, Text.mem_iff_of_splitWhere (p := (· == '/')) (by simpa using hslash), ← mem_steps_text_iff hdot]
  constructor
  · rintro ⟨component, hmem, hc⟩
    rcases List.mem_append.1 hmem with hmem | hmem
    · exact absurd hc (hanchor component hmem)
    · exact ⟨component, hmem, hc⟩
  · rintro ⟨component, hmem, hc⟩
    exact ⟨component, List.mem_append_right _ hmem, hc⟩

end Texts

section Relative

/-- Pieces with slashes between them stand for the same in the path that they make up. -/
theorem steps_splitWhere_join (hpieces : ∀ piece ∈ pieces, '/' ∉ piece) :
    steps ((Text.join ['/'] pieces).splitWhere (· == '/')) = steps pieces := by
  cases pieces with
  | nil => rfl
  | cons piece pieces => rw [splitWhere_join hpieces]

/-- A path whose first piece is a name has no anchor. -/
theorem anchor_join (hpieces : ∀ piece ∈ pieces, '/' ∉ piece) (hfirst : ∀ piece ∈ pieces.head?, isIdle piece = false) :
    anchor (Text.join ['/'] pieces) = [] := by
  cases pieces with
  | nil => rfl
  | cons first rest => exact anchor_of_not_idle (hfirst first rfl) (splitWhere_join hpieces)

theorem join_ne_nil {first : Text} (hfirst : first ≠ []) (rest : List Text) :
    Text.join ['/'] (first :: rest) ≠ [] := by
  cases rest with
  | nil => exact hfirst
  | cons next rest => simp [Text.join_cons_cons]

/-- Without the idle pieces at its end a path has the same components. -/
theorem components_dropIdleTail (path : Text) : components (dropIdleTail path) = components path := by
  obtain ⟨first, rest, hpieces⟩ := List.exists_cons_of_ne_nil (Text.splitWhere_ne_nil (· == '/') path)
  have hkept : ∀ piece ∈ first :: dropIdleEnd rest, '/' ∉ piece := by
    intro piece hmem
    have hmem := ((dropIdleEnd_sublist rest).cons_cons first).mem hmem
    exact not_slash_mem_of_mem_splitWhere (hpieces ▸ hmem)
  have hsteps := steps_dropIdleEnd rest
  by_cases hpath : path = []
  · subst hpath
    rfl
  rw [dropIdleTail, hpieces]
  simp only [startsWhere_slash_iff hpath hpieces]
  by_cases hfirst : first = []
  · subst hfirst
    rw [if_pos (by rfl), if_pos rfl]
    have hslash : Text.splitWhere (· == '/') ('/' :: Text.join ['/'] (dropIdleEnd rest)) =
        [] :: Text.splitWhere (· == '/') (Text.join ['/'] (dropIdleEnd rest)) := Text.splitWhere_cons_of_pos (by rfl) _
    rw [components_eq_cons (List.cons_ne_nil _ _) hslash, components_eq_cons hpath hpieces,
      steps_splitWhere_join fun piece hmem => hkept piece (List.mem_cons_of_mem _ hmem), hsteps]
  · have hjoin : components (Text.join ['/'] (first :: dropIdleEnd rest)) = components path := by
      rw [components_eq_cons (join_ne_nil hfirst _) (splitWhere_join hkept), components_eq_cons hpath hpieces, hsteps]
    cases hidle : isIdle first with
    | true => rwa [if_pos rfl, if_neg hfirst]
    | false => rwa [if_neg Bool.false_ne_true, dropIdleEnd_cons_of_not_idle hidle]

/-- Without idle pieces at the front the first piece is a name. -/
theorem not_idle_of_mem_head? {piece : Text} (hmem : piece ∈ (dropIdleEnd (pieces.dropWhile isIdle)).head?) :
    isIdle piece = false := by
  cases hdropped : pieces.dropWhile isIdle with
  | nil => simp [hdropped, dropIdleEnd] at hmem
  | cons first rest =>
    have hidle : isIdle first = false := by
      simpa [hdropped] using List.head?_dropWhile_not isIdle pieces
    rw [hdropped, dropIdleEnd_cons_of_not_idle hidle] at hmem
    obtain rfl := Option.some.inj hmem
    exact hidle

/-- The first component of a path ends with its first piece. -/
theorem dropComponents_succ {first : Text} {rest : List Text} (count : Nat)
    (hpieces : path.splitWhere (· == '/') = first :: rest) :
    dropComponents (count + 1) path = Text.join ['/'] (dropIdleEnd ((dropNamed count rest).dropWhile isIdle)) := by
  rw [dropComponents, hpieces]
  cases hidle : isIdle first with
  | true => simp [hidle]
  | false => simp [hidle, dropNamed]

/-- What follows the first components of a path is pieces of it, of which the first is a name. -/
theorem exists_dropComponents_eq (count : Nat) (path : Text) : ∃ pieces : List Text,
    dropComponents (count + 1) path = Text.join ['/'] pieces ∧ (∀ piece ∈ pieces, '/' ∉ piece) ∧
      (∀ piece ∈ pieces.head?, isIdle piece = false) ∧ steps pieces = (components path).drop (count + 1) := by
  obtain ⟨first, rest, hpieces⟩ := List.exists_cons_of_ne_nil (Text.splitWhere_ne_nil (· == '/') path)
  have hkept := (dropIdleEnd_sublist _).trans ((List.dropWhile_sublist isIdle).trans (dropNamed_sublist count rest))
  refine ⟨_, dropComponents_succ count hpieces, ?_, fun piece => not_idle_of_mem_head?, ?_⟩
  · intro piece hmem
    exact not_slash_mem_of_mem_splitWhere (hpieces ▸ List.mem_cons_of_mem first (hkept.mem hmem))
  · rw [steps_dropIdleEnd, steps_dropWhile_isIdle, steps_dropNamed]
    by_cases hpath : path = []
    · subst hpath
      obtain ⟨-, rfl⟩ := List.cons.inj hpieces
      rw [steps_nil, components_eq_nil_iff.2 rfl, List.drop_nil, List.drop_nil]
    · rw [components_eq_cons hpath hpieces, List.drop_succ_cons]

/-- What follows the first components of a path stands for the other ones. -/
theorem components_dropComponents (count : Nat) (path : Text) :
    components (dropComponents count path) = (components path).drop count := by
  cases count with
  | zero => rw [dropComponents, components_dropIdleTail, List.drop_zero]
  | succ count =>
    obtain ⟨pieces, hdropped, hslash, hfirst, hsteps⟩ := exists_dropComponents_eq count path
    rw [hdropped, components_eq, anchor_join hslash hfirst, steps_splitWhere_join hslash, List.nil_append, hsteps]

end Relative

section Rejoin

/-- A path that was given relative to a base, behind the base again. A path from the root on stays as it is. -/
def rejoin (base path : Text) : Text :=
  if path.startsWhere (· == '/') then path else join base path

theorem rejoin_nil (path : Text) : rejoin [] path = path := by
  rw [rejoin, join, if_pos rfl, ite_self]

/-- What follows the components of the base leads from the base to the path. -/
theorem components_rejoin_dropComponents (hbelow : components base <+: components path) :
    components (rejoin base (dropComponents (components base).length path)) = components path := by
  have hdropped := components_dropComponents (components base).length path
  by_cases hbase : base = []
  · subst hbase
    rw [rejoin_nil, hdropped]
    rfl
  obtain ⟨count, hcount⟩ : ∃ count, (components base).length = count + 1 :=
    Nat.exists_eq_succ_of_ne_zero (mt (List.length_eq_zero_iff.1 ·) (mt components_eq_nil_iff.1 hbase))
  obtain ⟨pieces, hjoin, hslash, hfirst, hsteps⟩ := exists_dropComponents_eq count path
  rw [hcount, hjoin]
  have hanchor := anchor_join hslash hfirst
  have hrelative : (Text.join ['/'] pieces).startsWhere (· == '/') ≠ true := by
    intro hstart
    rw [anchor, if_pos hstart] at hanchor
    exact List.cons_ne_nil _ _ hanchor
  rw [rejoin, if_neg hrelative, components_join hbase, steps_splitWhere_join hslash, hsteps, ← hcount]
  exact (List.prefix_iff_eq_append.1 hbelow)

/-- What a path behind a base adds to the components of the base is made of its characters. -/
theorem mem_of_mem_drop_components_rejoin {t : Text} {c : Char} (hdot : c ≠ '.') (hslash : c ≠ '/')
    (hmem : ∃ component ∈ (components (rejoin base t)).drop (components base).length, c ∈ component.text) : c ∈ t := by
  obtain ⟨component, hcomponent, hc⟩ := hmem
  have hall : components (rejoin base t) = components t → c ∈ t := fun heq =>
    (mem_components_text_iff hdot hslash).1 ⟨component, heq ▸ List.mem_of_mem_drop hcomponent, hc⟩
  by_cases hstart : t.startsWhere (· == '/') = true
  · exact hall (by rw [rejoin, if_pos hstart])
  by_cases hbase : base = []
  · exact hall (by rw [hbase, rejoin_nil])
  rw [rejoin, if_neg hstart, components_join hbase, List.drop_left] at hcomponent
  exact (Text.mem_iff_of_splitWhere (by simpa using hslash)).2 ((mem_steps_text_iff hdot).1 ⟨component, hcomponent, hc⟩)

end Rejoin

section Ways

/-- Behind as many names as stand in the first pieces nothing is left of these. -/
theorem dropWhile_dropNamed_append (front back : List Text) :
    (dropNamed (steps front).length (front ++ back)).dropWhile isIdle = back.dropWhile isIdle := by
  induction front with
  | nil => simp [dropNamed]
  | cons piece front ih =>
    cases hidle : isIdle piece with
    | true =>
      rw [steps_cons_of_idle hidle, List.cons_append]
      cases hcount : (steps front).length with
      | zero => rw [← ih, hcount, dropNamed, dropNamed, List.dropWhile_cons_of_pos hidle]
      | succ count => rw [dropNamed, if_pos hidle, ← hcount, ih]
    | false =>
      rw [steps_cons_of_not_idle hidle, List.length_cons, List.cons_append, dropNamed,
        if_neg (by simp [hidle]), ih]

theorem dropIdleEnd_of_forall (hway : ∀ name ∈ way, isIdle name = false) : dropIdleEnd way = way := by
  induction way with
  | nil => rfl
  | cons name way ih =>
    rw [dropIdleEnd_cons_of_not_idle (hway name List.mem_cons_self),
      ih fun other hmem => hway other (List.mem_cons_of_mem _ hmem)]

/-- The pieces of the path of a way below a directory are those of the directory and the names. -/
theorem exists_splitWhere_joinAll (hdirectory : directory ≠ []) (hway : ∀ name ∈ way, name ≠ [] ∧ '/' ∉ name)
    (hne : way ≠ []) : ∃ first rest, (joinAll directory way).splitWhere (· == '/') = first :: (rest ++ way) ∧
      components directory = firstComponent first :: steps rest := by
  obtain ⟨name, names, rfl⟩ := List.exists_cons_of_ne_nil hne
  have hjoin := joinAll_cons_eq hdirectory hway
  have hnames := splitWhere_join fun piece hmem => (hway piece hmem).2
  by_cases hlast : directory.getLast? = some '/'
  · obtain ⟨front, rfl⟩ := List.getLast?_eq_some_iff.1 hlast
    obtain ⟨first, rest, hfront⟩ := List.exists_cons_of_ne_nil (Text.splitWhere_ne_nil (· == '/') front)
    have hpieces : Text.splitWhere (· == '/') (front ++ ['/']) = first :: (rest ++ [[]]) := by
      rw [Text.splitWhere_append_cons (by rfl), hfront]
      rfl
    refine ⟨first, rest, ?_, ?_⟩
    · rw [hjoin, withSlash, if_pos hlast, List.append_assoc, List.singleton_append,
        Text.splitWhere_append_cons (by rfl), hfront, hnames, List.cons_append]
    · rw [components_eq_cons hdirectory hpieces, steps_append, steps_cons_of_idle (by rfl), steps_nil, List.append_nil]
  · obtain ⟨first, rest, hpieces⟩ := List.exists_cons_of_ne_nil (Text.splitWhere_ne_nil (· == '/') directory)
    refine ⟨first, rest, ?_, components_eq_cons hdirectory hpieces⟩
    rw [hjoin, withSlash, if_neg hlast, List.append_assoc, List.singleton_append,
      Text.splitWhere_append_cons (by rfl), hpieces, hnames, List.cons_append]

theorem steps_of_forall (hway : ∀ name ∈ way, isIdle name = false) : steps way = way.map .ofPiece := by
  rw [steps, List.filter_eq_self.2]
  intro name hmem
  rw [hway name hmem, Bool.not_false]

variable (hdirectory : directory ≠ []) (hway : ∀ name ∈ way, isIdle name = false ∧ '/' ∉ name) (hne : way ≠ [])
include hdirectory hway hne

/-- Names lead below a directory: the path of a way has the components of the directory and then what the names
stand for, and nothing but the names is left of it below the directory. -/
theorem components_joinAll :
    components (joinAll directory way) = components directory ++ way.map .ofPiece ∧
    dropComponents (components directory).length (joinAll directory way) = Text.join ['/'] way := by
  have hidle : ∀ name ∈ way, isIdle name = false := fun name hmem => (hway name hmem).1
  obtain ⟨first, rest, hpieces, hcomponents⟩ := exists_splitWhere_joinAll hdirectory
    (fun name hmem => ⟨(not_or.1 (isIdle_iff.not.1 (Bool.eq_false_iff.1 (hidle name hmem)))).1, (hway name hmem).2⟩)
    hne
  have hpath : joinAll directory way ≠ [] := by
    intro hnone
    rw [hnone] at hpieces
    exact hne (List.append_eq_nil_iff.1 (List.cons.inj hpieces).2.symm).2
  constructor
  · rw [components_eq_cons hpath hpieces, hcomponents, steps_append, steps_of_forall hidle, List.cons_append]
  · have hfirst : way.dropWhile isIdle = way := by
      obtain ⟨name, names, rfl⟩ := List.exists_cons_of_ne_nil hne
      exact List.dropWhile_cons_of_neg (by simp [hidle name List.mem_cons_self])
    rw [hcomponents, List.length_cons, dropComponents_succ _ hpieces, dropWhile_dropNamed_append, hfirst,
      dropIdleEnd_of_forall hidle]

end Ways

end Path

end Outline
