import Outline.Extent.Statement
import Outline.Proofs.Attribute.Closing
import Outline.Proofs.Grammar.Names

namespace Outline

/-- Text in which every round or square bracket is closed by one of its kind, the inner ones first. -/
inductive Nested : Text → Prop where
  | nil : Nested []
  | other {c : Char} {t : Text} (hc : c ∉ ['(', ')', '[', ']']) (ht : Nested t) : Nested (c :: t)
  | round {s t : Text} (hs : Nested s) (ht : Nested t) : Nested ('(' :: (s ++ ')' :: t))
  | square {s t : Text} (hs : Nested s) (ht : Nested t) : Nested ('[' :: (s ++ ']' :: t))

/-- An attribute after a hash. -/
def hashAttribute (body : Text) : Text :=
  '#' :: '[' :: (body ++ [']'])

namespace Nested

variable {t rest : Text}

theorem append (ht : Nested t) (hrest : Nested rest) : Nested (t ++ rest) := by
  induction ht with
  | nil => exact hrest
  | other hc _ ih => exact .other hc ih
  | round hs _ _ ih =>
    rw [List.cons_append, List.append_assoc]
    exact .round hs ih
  | square hs _ _ ih =>
    rw [List.cons_append, List.append_assoc]
    exact .square hs ih

theorem of_all (ht : (t.all fun c => c ∉ ['(', ')', '[', ']']) = true) : Nested t := by
  induction t with
  | nil => exact .nil
  | cons c t ih =>
    obtain ⟨hc, ht⟩ := Bool.and_eq_true_iff.1 ht
    exact .other (of_decide_eq_true hc) (ih ht)

/-- What counts brackets and passes over other characters returns to its count. -/
theorem foldl_eq {σ : Type} {step : σ → Char → σ} (counted : Int → σ) {passes : Char → Prop}
    (hother : ∀ n c, c ∉ ['(', ')', '[', ']'] → passes c → step (counted n) c = counted n)
    (hopen : ∀ n, step (counted n) '(' = counted (n + 1) ∧ step (counted n) '[' = counted (n + 1))
    (hclose : ∀ n, step (counted (n + 1)) ')' = counted n ∧ step (counted (n + 1)) ']' = counted n)
    (hnested : Nested t) (hpasses : ∀ c ∈ t, passes c) (n : Int) : t.foldl step (counted n) = counted n := by
  induction hnested generalizing n with
  | nil => rfl
  | other hc _ ih =>
    obtain ⟨hfirst, hpasses⟩ := List.forall_mem_cons.1 hpasses
    rw [List.foldl_cons, hother n _ hc hfirst, ih hpasses]
  | round _ _ ihs iht =>
    obtain ⟨-, hpasses⟩ := List.forall_mem_cons.1 hpasses
    obtain ⟨hs, ht⟩ := List.forall_mem_append.1 hpasses
    rw [List.foldl_cons, (hopen n).1, List.foldl_append, ihs hs, List.foldl_cons, (hclose n).1,
      iht (List.forall_mem_cons.1 ht).2]
  | square _ _ ihs iht =>
    obtain ⟨-, hpasses⟩ := List.forall_mem_cons.1 hpasses
    obtain ⟨hs, ht⟩ := List.forall_mem_append.1 hpasses
    rw [List.foldl_cons, (hopen n).2, List.foldl_append, ihs hs, List.foldl_cons, (hclose n).2,
      iht (List.forall_mem_cons.1 ht).2]

/-- The search for the bracket that closes what is open goes over nested text. -/
theorem upToClose?_append (hnested : Nested t) (depth : Nat) (rest : Text) :
    upToClose? '[' ']' (depth + 1) (t ++ rest) =
      (upToClose? '[' ']' (depth + 1) rest).map fun parts => (t ++ parts.1, parts.2) := by
  induction hnested generalizing depth rest with
  | nil => exact Option.map_id'.symm
  | other hc _ ih =>
    simp only [List.mem_cons, List.not_mem_nil, or_false, not_or] at hc
    rw [List.cons_append, upToClose?, if_neg hc.2.2.1, if_neg hc.2.2.2, ih, Option.map_map]
    rfl
  | @round s t _ _ ihs iht =>
    have hclose : upToClose? '[' ']' (depth + 1) (')' :: (t ++ rest)) =
        (upToClose? '[' ']' (depth + 1) (t ++ rest)).map fun parts => (')' :: parts.1, parts.2) := by
      rw [upToClose?, if_neg (by decide), if_neg (by decide)]
    rw [List.cons_append, List.append_assoc, List.cons_append, upToClose?, if_neg (by decide), if_neg (by decide), ihs,
      hclose, iht, Option.map_map, Option.map_map, Option.map_map]
    simp [Function.comp_def]
  | @square s t _ _ ihs iht =>
    have hclose : upToClose? '[' ']' (depth + 1 + 1) (']' :: (t ++ rest)) =
        (upToClose? '[' ']' (depth + 1) (t ++ rest)).map fun parts => (']' :: parts.1, parts.2) := by
      rw [upToClose?, if_neg (by decide), if_pos rfl, if_neg (by omega), Nat.add_sub_cancel]
    rw [List.cons_append, List.append_assoc, List.cons_append, upToClose?, if_pos rfl, ihs, hclose, iht,
      Option.map_map, Option.map_map, Option.map_map]
    simp [Function.comp_def]

theorem bracketBalance_eq_zero (hnested : Nested t) : bracketBalance t = 0 := by
  have hpasses : ∀ c ∈ t, True := fun _ _ => trivial
  refine hnested.foldl_eq id (fun n c hc _ => ?_) (fun n => ?_) (fun n => ?_) hpasses 0
  · simp only [List.mem_cons, List.not_mem_nil, or_false, not_or] at hc
    simp [hc]
  · exact ⟨rfl, rfl⟩
  · exact ⟨Int.add_sub_cancel n 1, Int.add_sub_cancel n 1⟩

/-- The search for the body goes over nested text without braces and semicolons. -/
theorem foldl_headScan (hnested : Nested t) (hplain : ∀ c ∈ t, c ≠ '{' ∧ c ≠ ';') (terminator : Terminator) :
    t.foldl (HeadScan.step '{' '}' terminator) ⟨0, 0, false, false⟩ = ⟨0, 0, false, false⟩ := by
  refine hnested.foldl_eq (HeadScan.mk · 0 false false) (fun n c hc hpasses => ?_) (fun n => ?_) (fun n => ?_) hplain 0
  · simp only [List.mem_cons, List.not_mem_nil, or_false, not_or] at hc
    simp [HeadScan.step, hc, hpasses]
  · simp [HeadScan.step]
  · simp [HeadScan.step]

/-- The search for the end of a statement goes over nested text without braces and semicolons. -/
theorem foldl_statementScan (hnested : Nested t) (hplain : ∀ c ∈ t, c ≠ '{' ∧ c ≠ '}' ∧ c ≠ ';') :
    t.foldl StatementScan.step ⟨0, false⟩ = ⟨0, false⟩ := by
  refine hnested.foldl_eq (StatementScan.mk · false) (fun n c hc hpasses => ?_) (fun n => ?_) (fun n => ?_) hplain 0
  · simp only [List.mem_cons, List.not_mem_nil, or_false, not_or] at hc
    simp [StatementScan.step, bracketStep, isOpenBracket, isCloseBracket, hc, hpasses]
  · simp [StatementScan.step, bracketStep, isOpenBracket]
  · simp [StatementScan.step, bracketStep, isOpenBracket, isCloseBracket]

end Nested

section HashAttribute

variable {body rest : Text}

theorem solid_hashAttribute (body : Text) : Text.Solid (hashAttribute body) where
  starts := ⟨'#', '[' :: (body ++ [']']), rfl, by decide⟩
  ends := ⟨'#' :: '[' :: body, ']', rfl, by decide⟩

theorem nested_hashAttribute (hbody : Nested body) : Nested (hashAttribute body) :=
  .other (by decide) (.square hbody .nil)

/-- An attribute around nested text ends with its last bracket. -/
theorem hashAttribute?_append (hbody : Nested body) (rest : Text) :
    hashAttribute? (hashAttribute body ++ rest) = some ([], hashAttribute body, rest) := by
  refine hashAttribute?_eq_some_iff.2 ⟨List.forall_mem_nil _, body ++ ']' :: rest, '[' :: (body ++ [']']), ?_, rfl, ?_⟩
  · simp [hashAttribute]
  · have hlast : upToClose? '[' ']' 1 (']' :: rest) = some ([']'], rest) := by
      rw [upToClose?, if_neg (by decide), if_pos rfl, if_pos (Nat.le_refl 1)]
    rw [upToClose?, if_pos rfl, hbody.upToClose?_append, hlast]
    rfl

theorem leadingHashAttributes_append (hbody : Nested body) (rest : Text) :
    leadingHashAttributes (hashAttribute body ++ rest) =
      (([], hashAttribute body) :: (leadingHashAttributes rest).1, (leadingHashAttributes rest).2) := by
  rw [leadingHashAttributes]
  split
  · next hnone =>
    rw [hashAttribute?_append hbody] at hnone
    cases hnone
  · next gap mark later hsome =>
    rw [hashAttribute?_append hbody] at hsome
    obtain ⟨rfl, rfl, rfl⟩ := Option.some.inj hsome
    rfl

/-- No attribute opens a text that does not begin with a number sign. -/
theorem leadingHashAttributes_of_head {t : Text} (hhead : '#' ∉ (Text.trimStart t).head?) :
    leadingHashAttributes t = ([], t) := by
  rw [leadingHashAttributes]
  split
  · rfl
  · next gap mark later hsome =>
    obtain ⟨hgap, opened, inner, rfl, -⟩ := hashAttribute?_eq_some_iff.1 hsome
    rw [Text.trimStart_blank_append hgap] at hhead
    exact absurd rfl hhead

section Named

variable {code : Text}

theorem Text.startsSolid_of_name (hcode : startsWhere isNameChar code = true) : StartsSolid code := by
  cases code with
  | nil => cases hcode
  | cons c code => exact ⟨c, code, rfl, not_blank_of_isNameChar hcode⟩

theorem Text.startsWhere_of_prefix {p : Char → Bool} {t : Text} (ht : startsWhere p t = true) (hne : code ≠ [])
    (hbegins : code <+: t) : startsWhere p code = true := by
  obtain ⟨rest, rfl⟩ := hbegins
  cases code with
  | nil => exact absurd rfl hne
  | cons c code => exact ht

/-- Trimming keeps the identifier that code begins with. -/
theorem Text.startsWhere_trim (hcode : startsWhere isNameChar code = true) :
    startsWhere isNameChar (trim code) = true := by
  have hsolid := startsSolid_of_name hcode
  have hbegins := trimEnd_isPrefix code
  obtain ⟨c, rest, hcons, -⟩ := hsolid.trim
  rw [← hsolid.trimStart, ← Text.trim, hsolid.trimStart] at hbegins
  exact startsWhere_of_prefix hcode (hcons ▸ List.cons_ne_nil c rest) hbegins

theorem Text.strip?_of_name {c : Char} (hc : isNameChar c = false) (opening : Text)
    (hcode : startsWhere isNameChar code = true) : strip? (c :: opening) code = none := by
  cases code with
  | nil => rfl
  | cons d code =>
    have hne : c ≠ d := by
      rintro rfl
      rw [startsWhere, hc] at hcode
      cases hcode
    rw [strip?, if_neg hne]

theorem Text.blank_space : Blank [' '] := by
  decide

/-- No attribute opens a part of code that begins with an identifier. -/
theorem leadingHashAttributes_of_name {gap t : Text} (hcode : Text.startsWhere isNameChar code = true)
    (hgap : Text.Blank gap) (hbegins : t <+: code) : leadingHashAttributes (gap ++ t) = ([], gap ++ t) := by
  refine leadingHashAttributes_of_head ?_
  rw [Text.trimStart_blank_append hgap]
  by_cases hne : t = []
  · subst hne
    exact nofun
  · have ht := Text.startsWhere_of_prefix hcode hne hbegins
    rw [(Text.startsSolid_of_name ht).trimStart]
    intro hmem
    obtain ⟨more, rfl⟩ := List.head?_eq_some_iff.1 hmem
    exact absurd ht (by simp only [Text.startsWhere]; decide)

namespace AttributeStyle

/-- An attribute with a line of its own is collected from this line. -/
theorem collect_hashAttribute (hbody : Nested body) (following : List Text) :
    collect (hashAttribute body) following = (normalizeText (hashAttribute body), 0) := by
  have hclosed : ¬ bracketBalance (hashAttribute body) > 0 := by
    rw [(nested_hashAttribute hbody).bracketBalance_eq_zero]
    decide
  have hjoined (lines : List Text) : joinAttribute (hashAttribute body) lines = (hashAttribute body, 0) := by
    cases lines with
    | nil => rfl
    | cons line lines => rw [joinAttribute, if_neg hclosed]
  simp only [collect, (solid_hashAttribute body).trim, hjoined]

theorem startsAttribute_hashAttribute (hbody : Nested body) : startsAttribute .hash (hashAttribute body) = true := by
  have hnone : leadingHashAttributes [] = ([], []) := leadingHashAttributes_of_head nofun
  have hleading := leadingHashAttributes_append hbody []
  rw [List.append_nil, hnone] at hleading
  rw [startsAttribute, hleading]
  rfl

theorem startsAttribute_of_name (hcode : Text.startsWhere isNameChar code = true) :
    startsAttribute .hash code = false := by
  rw [startsAttribute, Text.startsWith, Text.strip?_of_name (by decide) _ hcode]
  rfl

/-- An attribute does not have its line for its own if code stands behind it. -/
theorem startsAttribute_behind (hbody : Nested body) (hcode : Text.startsWhere isNameChar code = true) :
    startsAttribute .hash (hashAttribute body ++ ' ' :: code) = false := by
  have hnone : leadingHashAttributes (' ' :: code) = ([], ' ' :: code) :=
    leadingHashAttributes_of_name hcode Text.blank_space List.prefix_rfl
  have hrest : Text.trim (' ' :: code) = Text.trim code := Text.trim_blank_append Text.blank_space code
  have htrim := Text.startsWhere_trim hcode
  obtain ⟨c, rest, hcons, -⟩ := Text.startsSolid_of_name htrim
  rw [startsAttribute, leadingHashAttributes_append hbody, hnone, Bool.and_eq_false_iff]
  right
  dsimp only
  rw [hrest, Text.startsWith, Text.strip?_of_name (by decide) _ htrim, hcons]
  rfl

theorem splitLeading_of_name (hcode : Text.startsWhere isNameChar code = true) :
    splitLeading .hash code = ([], code) := by
  have hnone : leadingHashAttributes code = ([], code) :=
    leadingHashAttributes_of_name hcode (List.forall_mem_nil _) List.prefix_rfl
  rw [splitLeading, hnone]

/-- The attribute and the space behind it stand before the code. -/
theorem splitLeading_behind (hbody : Nested body) (hcode : Text.startsWhere isNameChar code = true) :
    splitLeading .hash (hashAttribute body ++ ' ' :: code) = (hashAttribute body ++ [' '], code) := by
  have hnone : leadingHashAttributes (' ' :: code) = ([], ' ' :: code) :=
    leadingHashAttributes_of_name hcode Text.blank_space List.prefix_rfl
  obtain ⟨c, rest, rfl, hc⟩ := Text.startsSolid_of_name hcode
  have hvisible : ¬ Text.isBlankText (' ' :: c :: rest) = true := by
    simp [Text.isBlankText, hc]
  have hspace : isBlank ' ' = true := rfl
  simp [splitLeading, leadingHashAttributes_append hbody, hnone, hvisible, Text.leadingBlank, Text.trimStart, hc,
    hspace]

/-- Behind the attribute there is no other before the name. -/
theorem inline_behind (hbody : Nested body) (hcode : Text.startsWhere isNameChar code = true) {before : Text}
    (hbegins : before <+: code) :
    inline .hash (hashAttribute body ++ [' '] ++ before) = [normalizeText (hashAttribute body)] := by
  have hnone := leadingHashAttributes_of_name hcode Text.blank_space hbegins
  rw [inline, List.append_assoc, leadingHashAttributes_append hbody, hnone]
  rfl

theorem inline_of_name (hcode : Text.startsWhere isNameChar code = true) {before : Text} (hbegins : before <+: code) :
    inline .hash before = [] := by
  have hnone : leadingHashAttributes before = ([], before) :=
    leadingHashAttributes_of_name hcode (List.forall_mem_nil _) hbegins
  rw [inline, hnone]
  rfl

end AttributeStyle

end Named

end HashAttribute

end Outline
