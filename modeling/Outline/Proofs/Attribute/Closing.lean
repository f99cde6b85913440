import Outline.Proofs.Attribute.Delimiters
import Outline.Proofs.Text.Solid

namespace Outline

section Pairs

variable {opener closer : Char}

/-- White space and the like tells nothing of pairs. -/
theorem tally_pairValue_of_not_mem {t : Text} (hopener : opener ∉ t) (hcloser : closer ∉ t) :
    Text.tally (pairValue opener closer) t = 0 := by
  induction t with
  | nil => rfl
  | cons c t ih =>
    obtain ⟨hc, hopener⟩ := not_or.1 (mt List.mem_cons.2 hopener)
    obtain ⟨hc', hcloser⟩ := not_or.1 (mt List.mem_cons.2 hcloser)
    rw [Text.tally_cons, ih hopener hcloser, pairValue, if_neg (Ne.symm hc), if_neg (Ne.symm hc')]
    rfl

theorem tally_pairValue_of_blank (hopener : isBlank opener = false) (hcloser : isBlank closer = false) {t : Text}
    (hblank : Text.Blank t) : Text.tally (pairValue opener closer) t = 0 := by
  refine tally_pairValue_of_not_mem (fun hmem => ?_) fun hmem => ?_
  · simp [hblank _ hmem] at hopener
  · simp [hblank _ hmem] at hcloser

theorem tally_pairValue_eq (hne : opener ≠ closer) (t : Text) :
    Text.tally (pairValue opener closer) t = t.count opener - t.count closer := by
  induction t with
  | nil => rfl
  | cons c t ih =>
    rw [Text.tally_cons, ih, pairValue]
    by_cases hopener : c = opener
    · subst hopener
      rw [if_pos rfl, List.count_cons_self, List.count_cons_of_ne hne]
      omega
    · rw [if_neg hopener, List.count_cons_of_ne hopener]
      by_cases hcloser : c = closer
      · subst hcloser
        rw [if_pos rfl, List.count_cons_self]
        omega
      · rw [if_neg hcloser, List.count_cons_of_ne hcloser, Int.zero_add]

theorem bracketBalance_eq (t : Text) :
    bracketBalance t = Text.tally (pairValue '(' ')') t + Text.tally (pairValue '[' ']') t := by
  have hstep (balance : Int) (c : Char) :
      (if c = '(' || c = '[' then balance + 1 else if c = ')' || c = ']' then balance - 1 else balance) =
        balance + (pairValue '(' ')' c + pairValue '[' ']' c) := by
    unfold pairValue
    by_cases hround : c = '('
    · simp [hround]
    · by_cases hsquare : c = '['
      · simp [hsquare]
      · by_cases hround' : c = ')'
        · simp [hround', Int.sub_eq_add_neg]
        · simp only [hround, hsquare, hround', if_false, decide_false, Bool.or_self, Bool.false_or, Int.zero_add,
            decide_eq_true_eq, Bool.false_eq_true]
          split <;> omega
  have hfold (balance : Int) : t.foldl (fun balance c =>
      if c = '(' || c = '[' then balance + 1 else if c = ')' || c = ']' then balance - 1 else balance) balance =
        balance + (Text.tally (pairValue '(' ')') t + Text.tally (pairValue '[' ']') t) := by
    induction t generalizing balance with
    | nil => simp
    | cons c t ih =>
      rw [List.foldl_cons, ih, hstep, Text.tally_cons, Text.tally_cons]
      omega
  rw [bracketBalance, hfold, Int.zero_add]

end Pairs

/-- An attribute after a hash stands behind white space, and goes up to the bracket that closes its first one. -/
theorem hashAttribute?_eq_some_iff {t gap mark rest : Text} :
    hashAttribute? t = some (gap, mark, rest) ↔ Text.Blank gap ∧
      ∃ opened inner, t = gap ++ '#' :: '[' :: opened ∧ mark = '#' :: inner ∧
        upToClose? '[' ']' 0 ('[' :: opened) = some (inner, rest) := by
  constructor
  · intro hsome
    unfold hashAttribute? at hsome
    split at hsome
    · cases hsome
    next opened hopened =>
    split at hsome
    · next hbracket =>
      obtain ⟨⟨inner, after⟩, hclose, heq⟩ := Option.map_eq_some_iff.1 hsome
      obtain ⟨rfl, rfl, rfl⟩ := heq
      obtain ⟨more, rfl⟩ := Text.startsWith_iff.1 hbracket
      have htrim : Text.trimStart t = '#' :: '[' :: more := Text.strip?_eq_some_iff.1 hopened
      refine ⟨Text.blank_leadingBlank t, more, inner, ?_, rfl, hclose⟩
      rw [← htrim, Text.leadingBlank_append_trimStart]
    · cases hsome
  · rintro ⟨hgap, opened, inner, rfl, rfl, hclose⟩
    have htrim : Text.trimStart (gap ++ '#' :: '[' :: opened) = '#' :: '[' :: opened := by
      rw [Text.trimStart_blank_append hgap]
      rfl
    have hblank : Text.leadingBlank (gap ++ '#' :: '[' :: opened) = gap :=
      Text.leadingBlank_append hgap ⟨'#', '[' :: opened, rfl, rfl⟩
    have hbracket : Text.startsWith ['['] ('[' :: opened) = true := rfl
    simp only [hashAttribute?, htrim, hblank, Text.strip?, if_true, hbracket, hclose]
    rfl

/-- The attributes that open a text leave the balance of square brackets to the rest of it. -/
theorem tally_leadingHashAttributes (t : Text) :
    Text.tally (pairValue '[' ']') (leadingHashAttributes t).2 = Text.tally (pairValue '[' ']') t := by
  fun_induction leadingHashAttributes t with
  | case1 t hnone => rfl
  | case2 t gap mark rest hsome hshorter later ih =>
    obtain ⟨hgap, opened, inner, -, rfl, hclose⟩ := hashAttribute?_eq_some_iff.1 hsome
    have hmark : Text.tally (pairValue '[' ']') ('#' :: inner) = 0 := by
      rw [Text.tally_cons, tally_of_upToClose?_cons hclose]
      rfl
    rw [ih, (eq_of_hashAttribute?_eq_some hsome).1, Text.tally_append, Text.tally_append, hmark,
      tally_pairValue_of_blank rfl rfl hgap]
    omega

namespace AttributeStyle

/-- The line, given trimmed, consists of attributes that close on it. -/
inductive ClosesOnLine : AttributeStyle → Text → Prop where
  /-- Attributes in brackets after a hash, up to the end of the line. -/
  | hash {t : Text} (hrest : (leadingHashAttributes t).2 = []) : ClosesOnLine .hash t
  /-- A name alone. -/
  | name {name : Text} (hname : ∀ c ∈ name, isNameChar c = true ∨ c = '.') : ClosesOnLine .atSign ('@' :: name)
  /-- A name with arguments whose closing parenthesis ends the line. -/
  | call {name gap arguments : Text} (hname : ∀ c ∈ name, isNameChar c = true ∨ c = '.') (hgap : Text.Blank gap)
      (hclose : upToClose? '(' ')' 0 ('(' :: arguments) = some ('(' :: arguments, [])) :
      ClosesOnLine .atSign ('@' :: (name ++ (gap ++ '(' :: arguments)))

/-- The brackets that have no part in closing an attribute, although they are counted. -/
def innerBrackets : AttributeStyle → Char × Char
  | .hash => ('(', ')')
  | _ => ('[', ']')

variable {style : AttributeStyle} {t line : Text}

/-- The name of an attribute has no brackets. -/
theorem tally_pairValue_of_name {opener closer : Char} {name : Text}
    (hname : ∀ c ∈ name, isNameChar c = true ∨ c = '.') (hopener : isNameChar opener = false ∧ opener ≠ '.')
    (hcloser : isNameChar closer = false ∧ closer ≠ '.') : Text.tally (pairValue opener closer) name = 0 := by
  refine tally_pairValue_of_not_mem (fun hmem => ?_) fun hmem => ?_
  · simpa [hopener] using hname _ hmem
  · simpa [hcloser] using hname _ hmem

/-- In an attribute that closes on its line the brackets that close it balance. -/
theorem ClosesOnLine.bracketBalance_eq (hcloses : style.ClosesOnLine t) :
    bracketBalance t = t.count style.innerBrackets.1 - t.count style.innerBrackets.2 := by
  rw [Outline.bracketBalance_eq]
  cases hcloses with
  | hash hrest =>
    have hsquare := tally_leadingHashAttributes t
    rw [hrest, Text.tally_nil] at hsquare
    rw [← hsquare, tally_pairValue_eq (by decide), Int.add_zero]
    rfl
  | @name name hname =>
    have hround : Text.tally (pairValue '(' ')') ('@' :: name) = 0 := by
      rw [Text.tally_cons, tally_pairValue_of_name hname (by decide) (by decide)]
      rfl
    rw [hround, tally_pairValue_eq (by decide), Int.zero_add]
    rfl
  | @call name gap arguments hname hgap hclose =>
    have hround : Text.tally (pairValue '(' ')') ('@' :: (name ++ (gap ++ '(' :: arguments))) = 0 := by
      rw [Text.tally_cons, Text.tally_append, Text.tally_append, tally_of_upToClose?_cons hclose,
        tally_pairValue_of_name hname (by decide) (by decide), tally_pairValue_of_blank rfl rfl hgap]
      rfl
    rw [hround, tally_pairValue_eq (by decide), Int.zero_add]
    rfl

/-- An attribute takes no line but its own exactly if there is none or its brackets are closed. -/
theorem snd_collect_eq_zero_iff (line : Text) (following : List Text) :
    (collect line following).2 = 0 ↔ following = [] ∨ bracketBalance (Text.trim line) ≤ 0 := by
  cases following with
  | nil => simp [collect, joinAttribute]
  | cons next rest =>
    simp only [collect, maxAttributeLines, List.take_succ_cons, joinAttribute, reduceCtorEq, false_or]
    split <;> rename_i hopen
    · simpa using hopen
    · simpa using hopen

/-- An attribute that closes on its line takes no other line unless brackets that have no part in closing it, as in a
string, are left open. Whether it is complete is told by the brackets that enclose it, and whether it goes on by the
balance of round and square brackets together. -/
theorem collect_stays_iff {following : List Text} (hcloses : style.ClosesOnLine (Text.trim line)) :
    (collect line following).2 = 0 ↔ following = [] ∨
      (Text.trim line).count style.innerBrackets.1 ≤ (Text.trim line).count style.innerBrackets.2 := by
  rw [snd_collect_eq_zero_iff, hcloses.bracketBalance_eq]
  exact or_congr Iff.rfl (by omega)

/-- Attributes of either style with brackets of both kinds, and a line behind each. -/
theorem collect_stays_iff_arguments :
    (ClosesOnLine .hash (Text.trim " #[cfg(all(unix, x[0]))] #[test] ".toList) ∧
        (collect " #[cfg(all(unix, x[0]))] #[test] ".toList ["fn f() \x7b\x7d".toList]).2 = 0) ∧
      ClosesOnLine .atSign (Text.trim "@app.route (\"/[id]\", [1]) ".toList) ∧
        (collect "@app.route (\"/[id]\", [1]) ".toList ["def f():".toList]).2 = 0 := by
  have hhash : ClosesOnLine .hash (Text.trim " #[cfg(all(unix, x[0]))] #[test] ".toList) := .hash (by decide +kernel)
  have hname : ("app.route".toList.all fun c => isNameChar c = true ∨ c = '.') = true := by decide +kernel
  have hat : ClosesOnLine .atSign (Text.trim "@app.route (\"/[id]\", [1]) ".toList) :=
    @ClosesOnLine.call "app.route".toList [' '] _ (fun c hc => of_decide_eq_true (List.all_eq_true.1 hname c hc))
      (by decide) (by decide +kernel)
  exact ⟨⟨hhash, (collect_stays_iff hhash).2 (.inr (by decide +kernel))⟩,
    hat, (collect_stays_iff hat).2 (.inr (by decide +kernel))⟩

/-- A parenthesis in a string is left open, and the declaration behind its attribute becomes a part of it. -/
theorem not_collect_stays_quotedParen :
    ClosesOnLine .hash (Text.trim "#[doc = \"(\"]".toList) ∧
      collect "#[doc = \"(\"]".toList ["fn f() \x7b\x7d".toList] = ("#[doc = \"(\"] fn f() \x7b\x7d".toList, 1) :=
  ⟨.hash (by decide +kernel), by decide +kernel⟩

end AttributeStyle

end Outline
