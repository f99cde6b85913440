import Outline.Proofs.Lexing.Faithful
import Outline.Proofs.Text.Edges

namespace Outline

section Openings

variable {shared old text before : Text}

/-- If an answer is the same wherever it takes no more than the shared text, so is the first answer of a list. -/
theorem findSome?_eq_of_within {α β : Type} {f g : α → Option β} {list : List α} (within : β → Prop)
    (heach : ∀ a ∈ list, (∀ b, f a = some b → within b) → g a = f a)
    (hwithin : ∀ b, list.findSome? f = some b → within b) : list.findSome? g = list.findSome? f := by
  induction list with
  | nil => rfl
  | cons a list ih =>
    rw [List.findSome?_cons] at hwithin
    rw [List.findSome?_cons, List.findSome?_cons]
    cases hfirst : f a with
    | some b =>
      rw [heach a List.mem_cons_self (by simpa [hfirst] using hwithin), hfirst]
    | none =>
      rw [heach a List.mem_cons_self (by simp [hfirst]), hfirst]
      simp only [hfirst] at hwithin
      exact ih (fun b hmem => heach b (List.mem_cons_of_mem a hmem)) hwithin

namespace StringRule

/-- An opening takes the opener, the whole fence and a quote. -/
theorem lt_of_openFence? {minHashes : Nat} {triple : Bool} {opener after : Text} {found : Nat × LexState}
    (hopen : openFence? before (opener ++ after) minHashes triple opener = some found) :
    opener.length + (after.takeWhile (· == '#')).length < found.1 := by
  simp only [openFence?, Text.strip?_append] at hopen
  split at hopen
  · cases hopen
  · split at hopen
    · cases hopen
    · split at hopen
      · cases hopen
        simp only
        omega
      · split at hopen
        · cases hopen
          simp only
          omega
        · cases hopen

/-- A fence that runs up to a space opens nothing. -/
theorem openFence?_eq_none {minHashes : Nat} {triple : Bool} {opener after : Text}
    (hfence : after.dropWhile (· == '#') = []) (text : Text) :
    openFence? before (opener ++ (after ++ ' ' :: text)) minHashes triple opener = none := by
  have hquotes : Text.startsWith ['"', '"', '"'] (' ' :: text) = false := Text.startsWith_blank (by decide) rfl
  have hquote : Text.startsWith ['"'] (' ' :: text) = false := Text.startsWith_blank (by decide) rfl
  have hspace : (' ' == '#') = false := rfl
  simp only [openFence?, Text.strip?_append, List.dropWhile_append, hfence, List.isEmpty_nil, if_true,
    List.dropWhile_cons, hspace, Bool.false_eq_true, if_false, hquotes, hquote, Bool.and_false, ite_self]

/-- Behind a fence that ends within the shared text only the quotes are looked for. -/
theorem openFence?_swap_of_fence {minHashes : Nat} {triple : Bool} {opener after : Text}
    (hfence : after.dropWhile (· == '#') ≠ [])
    (hwithin : ∀ found, openFence? before (opener ++ (after ++ old)) minHashes triple opener = some found →
      found.1 ≤ opener.length + after.length) :
    openFence? before (opener ++ (after ++ ' ' :: text)) minHashes triple opener =
      openFence? before (opener ++ (after ++ old)) minHashes triple opener := by
  have hpos := List.length_pos_iff.2 hfence
  have hparts : after.length = (after.takeWhile (· == '#')).length + (after.dropWhile (· == '#')).length := by
    rw [← List.length_append, List.takeWhile_append_dropWhile]
  have htake (x : Text) : (after ++ x).takeWhile (· == '#') = after.takeWhile (· == '#') := by
    rw [List.takeWhile_append, if_neg (by omega)]
  have hdrop (x : Text) : (after ++ x).dropWhile (· == '#') = after.dropWhile (· == '#') ++ x := by
    rw [List.dropWhile_append, if_neg (by simpa using hfence)]
  simp only [openFence?, Text.strip?_append, htake, hdrop] at hwithin ⊢
  by_cases hname : (!opener.isEmpty && !(nameBefore before).isEmpty) = true
  · rw [if_pos hname, if_pos hname]
  by_cases hmin : (after.takeWhile (· == '#')).length < minHashes
  · simp only [if_neg hname, if_pos hmin]
  simp only [if_neg hname, if_neg hmin] at hwithin ⊢
  have hquote : Text.startsWith ['"'] (after.dropWhile (· == '#') ++ ' ' :: text) =
      Text.startsWith ['"'] (after.dropWhile (· == '#') ++ old) :=
    Text.startsWith_swap (by decide) fun _ => hpos
  cases triple with
  | false => simp only [Bool.false_and, hquote]
  | true =>
    have hquotes : Text.startsWith ['"', '"', '"'] (after.dropWhile (· == '#') ++ ' ' :: text) =
        Text.startsWith ['"', '"', '"'] (after.dropWhile (· == '#') ++ old) := by
      refine Text.startsWith_swap (by decide) fun hold => ?_
      have hle := hwithin _ (by rw [hold, Bool.and_self, if_pos rfl])
      simp only [List.length_cons, List.length_nil] at hle ⊢
      omega
    rw [hquotes, hquote]

theorem openFence?_swap {minHashes : Nat} {triple : Bool} {opener : Text} (hopener : ' ' ∉ opener)
    (hwithin : ∀ found, openFence? before (shared ++ old) minHashes triple opener = some found →
      found.1 ≤ shared.length) :
    openFence? before (shared ++ ' ' :: text) minHashes triple opener =
      openFence? before (shared ++ old) minHashes triple opener := by
  by_cases hstarts : opener <+: shared
  · obtain ⟨after, rfl⟩ := hstarts
    simp only [List.append_assoc, List.length_append] at hwithin ⊢
    by_cases hfence : after.dropWhile (· == '#') = []
    · rw [openFence?_eq_none hfence]
      refine (Option.eq_none_iff_forall_ne_some.2 fun found hfound => ?_).symm
      -- the fence takes the rest of the shared text, so that there is no room for a quote
      have hlength := lt_of_openFence? hfound
      have hle := hwithin found hfound
      rw [List.takeWhile_append_of_pos (List.dropWhile_eq_nil_iff.1 hfence), List.length_append] at hlength
      omega
    · exact openFence?_swap_of_fence hfence hwithin
  · have hnew : Text.strip? opener (shared ++ ' ' :: text) = none :=
      Text.strip?_eq_none fun hbegins => hstarts (Text.isPrefix_of_isPrefix_append hopener hbegins)
    rw [openFence?, hnew]
    refine (Option.eq_none_iff_forall_ne_some.2 fun found hfound => ?_).symm
    cases hold : Text.strip? opener (shared ++ old) with
    | none => simp [openFence?, hold] at hfound
    | some after =>
      have hparts := Text.strip?_eq_some_iff.1 hold
      have hlength := lt_of_openFence? (hparts ▸ hfound)
      have hle := hwithin found hfound
      have hlonger : ¬ opener.length ≤ shared.length := fun hshort =>
        hstarts (List.prefix_of_prefix_length_le ⟨after, hparts.symm⟩ (List.prefix_append _ _) hshort)
      omega

/-- A tag never goes over a space. -/
theorem openTag?_eq_none {after : Text} (hparen : '(' ∉ after) (text : Text) :
    openTag? before (['R', '"'] ++ (after ++ ' ' :: text)) = none := by
  have hcut : Text.cut? ['('] (' ' :: text) = (Text.cut? ['('] text).map fun parts => (' ' :: parts.1, parts.2) :=
    Text.cut?_append (t := [' ']) (by decide) text
  simp only [openTag?, Text.strip?_append, Text.cut?_append hparen, hcut]
  cases Text.cut? ['('] text with
  | none => simp
  | some parts => simp [isBlank]

theorem lt_of_openTag? {after rest : Text} (hparen : '(' ∉ after) {found : Nat × LexState}
    (hopen : openTag? before (['R', '"'] ++ (after ++ rest)) = some found) : after.length + 2 < found.1 := by
  simp only [openTag?, Text.strip?_append, Text.cut?_append hparen] at hopen
  split at hopen
  · cases hopen
  · split at hopen
    · cases hopen
    · next tag body hcut =>
      obtain ⟨parts, _, hparts⟩ := Option.map_eq_some_iff.1 hcut
      obtain rfl : after ++ parts.1 = tag := congrArg Prod.fst hparts
      split at hopen
      · cases hopen
      · cases hopen
        simp only [List.length_append]
        omega

theorem openTag?_swap (hroom : 2 ≤ shared.length)
    (hwithin : ∀ found, openTag? before (shared ++ old) = some found → found.1 ≤ shared.length) :
    openTag? before (shared ++ ' ' :: text) = openTag? before (shared ++ old) := by
  by_cases hstarts : ['R', '"'] <+: shared
  · obtain ⟨after, rfl⟩ := hstarts
    rw [List.append_assoc] at hwithin ⊢
    rw [List.append_assoc]
    by_cases hparen : '(' ∈ after
    · obtain ⟨tag, body, rfl, htag⟩ := List.eq_append_cons_of_mem hparen
      have hcut (rest : Text) : Text.cut? ['('] (tag ++ '(' :: body ++ rest) = some (tag, body ++ rest) := by
        rw [List.append_assoc, List.cons_append, Text.cut?_append_cons htag]
      simp only [openTag?, Text.strip?_append, hcut]
    · rw [openTag?_eq_none hparen text]
      refine (Option.eq_none_iff_forall_ne_some.2 fun found hfound => ?_).symm
      have hlength := lt_of_openTag? hparen hfound
      have hle := hwithin found hfound
      simp only [List.length_append, List.length_cons, List.length_nil] at hle
      omega
  · have hneither (rest : Text) : ¬ ['R', '"'] <+: shared ++ rest := fun hbegins =>
      hstarts (List.prefix_of_prefix_length_le hbegins (List.prefix_append _ _) hroom)
    rw [openTag?, openTag?, Text.strip?_eq_none (hneither _), Text.strip?_eq_none (hneither _)]

/-- Whether the marks of the rule hold no space. -/
def isSpaceless : StringRule → Bool
  | .quoted opener closer _ _ => ' ' ∉ opener && ' ' ∉ closer
  | .fenced openers _ _ => openers.all (' ' ∉ ·)
  | .tagged => true

theorem open?_swap {rule : StringRule} (hrule : rule.isSpaceless = true) (hroom : 2 ≤ shared.length)
    (hwithin : ∀ found, rule.open? before (shared ++ old) = some found → found.1 ≤ shared.length) :
    rule.open? before (shared ++ ' ' :: text) = rule.open? before (shared ++ old) := by
  cases rule with
  | quoted opener closer escapes multiline =>
    simp only [isSpaceless, Bool.and_eq_true, decide_eq_true_eq] at hrule
    have hstarts : Text.startsWith opener (shared ++ ' ' :: text) = Text.startsWith opener (shared ++ old) :=
      Text.startsWith_swap hrule.1 fun hold => hwithin _ (by rw [open?, if_pos hold])
    rw [open?, open?, hstarts]
  | fenced openers minHashes triple =>
    refine findSome?_eq_of_within (fun found => found.1 ≤ shared.length) (fun opener hmem hone => ?_) hwithin
    exact openFence?_swap (of_decide_eq_true (List.all_eq_true.1 hrule opener hmem)) hone
  | tagged => exact openTag?_swap hroom hwithin

theorem Closes.space_not_mem {rule : StringRule} {close : Text} (hcloses : rule.Closes close)
    (hrule : rule.isSpaceless = true) : ' ' ∉ close := by
  cases hcloses with
  | quoted =>
    simp only [isSpaceless, Bool.and_eq_true, decide_eq_true_eq] at hrule
    exact hrule.2
  | fence hfence | tripleFence hfence =>
    intro hmem
    simp only [List.cons_append, List.nil_append, List.mem_cons, Char.reduceEq, false_or] at hmem
    exact absurd (hfence _ hmem) (by decide)
  | tag htag =>
    intro hmem
    simp only [List.cons_append, List.mem_cons, List.mem_append, Char.reduceEq, List.not_mem_nil, or_false, false_or]
      at hmem
    exact absurd (htag _ hmem) (by decide)

end StringRule

theorem charLiteralLength?_plain {c : Char} (hescape : c ≠ '\\') (hquote : c ≠ '\'') (after : Text) :
    charLiteralLength? (c :: after) = if Text.startsWith ['\''] after then some 3 else none := by
  cases after with
  | nil => simp [charLiteralLength?, hescape, hquote, Text.startsWith, Text.strip?]
  | cons d after =>
    by_cases hd : d = '\''
    · subst hd
      simp [charLiteralLength?, Text.startsWith, Text.strip?]
    · simp [charLiteralLength?, hescape, hquote, hd, Ne.symm hd, Text.startsWith, Text.strip?]

theorem three_le_of_charLiteralLength? {after : Text} {length : Nat}
    (hliteral : charLiteralLength? after = some length) : 3 ≤ length := by
  unfold charLiteralLength? at hliteral
  split at hliteral
  · cases hliteral
  · obtain ⟨index, _, rfl⟩ := Option.map_eq_some_iff.1 hliteral
    omega
  · cases hliteral
  · cases hliteral
    exact Nat.le_refl 3
  · cases hliteral

/-- A character literal that ends within some text does not depend on what follows the text. -/
theorem charLiteralLength?_append {after : Text} {length : Nat}
    (hliteral : charLiteralLength? (after ++ old) = some length) (hle : length ≤ after.length + 1) (text : Text) :
    charLiteralLength? (after ++ text) = some length := by
  have hthree := three_le_of_charLiteralLength? hliteral
  obtain ⟨c, after, rfl⟩ : ∃ c rest, after = c :: rest := List.exists_cons_of_length_pos (by omega)
  rw [List.length_cons] at hle
  obtain ⟨d, after, rfl⟩ : ∃ d rest, after = d :: rest := List.exists_cons_of_length_pos (by omega)
  simp only [List.length_cons] at hle
  simp only [List.cons_append] at hliteral ⊢
  by_cases hescape : c = '\\'
  · subst hescape
    simp only [charLiteralLength?, List.drop_succ_cons, List.drop_zero, List.take_append, List.findIdx?_append]
      at hliteral ⊢
    cases hfirst : (after.take 10).findIdx? (· == '\'') with
    | some index => simpa [hfirst] using hliteral
    | none =>
      -- a quote further on would stand behind the text
      rw [hfirst, Option.none_or, Option.map_map, Option.map_eq_some_iff] at hliteral
      obtain ⟨index, hindex, rfl⟩ := hliteral
      obtain ⟨hlt, _⟩ := List.findIdx?_eq_some_iff_getElem.1 hindex
      simp only [List.length_take, Function.comp_apply] at hlt hle
      omega
  · by_cases hquote : c = '\''
    · subst hquote
      cases hliteral
    · rw [charLiteralLength?_plain hescape hquote] at hliteral ⊢
      by_cases hclosed : d = '\''
      · subst hclosed
        exact hliteral
      · simp [Text.startsWith, Text.strip?, Ne.symm hclosed] at hliteral

end Openings

/-- A reading that goes on behind some code that took a number of moves. -/
def Reading.after (code : List (Nat × Char)) (steps : Nat) (later : Reading) : Reading :=
  ⟨code ++ later.code, steps + later.examined, later.state, later.finished⟩

theorem Reading.after_after (code code' : List (Nat × Char)) (steps steps' : Nat) (later : Reading) :
    after code steps (after code' steps' later) = after (code ++ code') (steps + steps') later := by
  simp [after, Nat.add_assoc]

/-- Whether a move stays in its line and takes no more than the next `room` characters. -/
def Move.Within (room : Nat) : Move → Prop
  | .endLine => False
  | .code => True
  | .token length _ => length ≤ room

namespace Lexicon

/-- Whether no mark of the lexicon holds a space. -/
def isSpaceless (lexicon : Lexicon) : Bool :=
  lexicon.lineComments.all (' ' ∉ ·) &&
    lexicon.blockComment.all (fun marks => ' ' ∉ marks.1 && ' ' ∉ marks.2) &&
    lexicon.strings.all StringRule.isSpaceless

variable {lexicon : Lexicon} {state : LexState} {tail mark old text before : Text}

section Moves

theorem charLiteral?_append {shared : Text} (hshared : shared ≠ []) {length : Nat}
    (hliteral : lexicon.charLiteral? (shared ++ old) = some length) (hle : length ≤ shared.length) (text : Text) :
    lexicon.charLiteral? (shared ++ text) = some length := by
  obtain ⟨c, after, rfl⟩ := List.exists_cons_of_ne_nil hshared
  by_cases hc : c = '\''
  · subst hc
    simp only [List.cons_append, charLiteral?] at hliteral ⊢
    cases hchars : lexicon.charLiterals with
    | false => simp [hchars] at hliteral
    | true =>
      simp only [hchars, if_true] at hliteral ⊢
      exact charLiteralLength?_append hliteral hle text
  · simp [charLiteral?, hc] at hliteral

theorem charLiteral?_swap {shared : Text} (hshared : shared ≠ [])
    (hnew : ∀ length, lexicon.charLiteral? (shared ++ text) = some length → length ≤ shared.length)
    (hold : ∀ length, lexicon.charLiteral? (shared ++ old) = some length → length ≤ shared.length) :
    lexicon.charLiteral? (shared ++ text) = lexicon.charLiteral? (shared ++ old) := by
  refine Option.ext fun length => ⟨fun hliteral => ?_, fun hliteral => ?_⟩
  · exact charLiteral?_append hshared hliteral (hnew length hliteral) old
  · exact charLiteral?_append hshared hliteral (hold length hliteral) text

theorem literalMove_swap {shared close : Text} {escapes multiline : Bool} (hclose : ' ' ∉ close)
    (hroom : 0 < shared.length)
    (hwithin : (literalMove close escapes multiline (shared ++ old)).Within shared.length) :
    literalMove close escapes multiline (shared ++ ' ' :: text) =
      literalMove close escapes multiline (shared ++ old) := by
  have hback : Text.startsWith ['\\'] (shared ++ ' ' :: text) = Text.startsWith ['\\'] (shared ++ old) :=
    Text.startsWith_swap (by decide) fun _ => hroom
  unfold literalMove at hwithin ⊢
  rw [hback]
  by_cases hescapes : (escapes && Text.startsWith ['\\'] (shared ++ old)) = true
  · rw [if_pos hescapes, if_pos hescapes]
  · rw [if_neg hescapes] at hwithin
    have hends : Text.startsWith close (shared ++ ' ' :: text) = Text.startsWith close (shared ++ old) :=
      Text.startsWith_swap hclose fun hold => by rwa [if_pos hold] at hwithin
    rw [if_neg hescapes, if_neg hescapes, hends]

theorem commentMove_swap {shared : Text} {depth : Nat} (hspaceless : lexicon.isSpaceless = true)
    (hwithin : (lexicon.commentMove depth (shared ++ old)).Within shared.length) :
    lexicon.commentMove depth (shared ++ ' ' :: text) = lexicon.commentMove depth (shared ++ old) := by
  unfold commentMove at hwithin ⊢
  cases hpair : lexicon.blockComment with
  | none => rfl
  | some marks =>
    obtain ⟨opener, closer⟩ := marks
    simp only [isSpaceless, hpair, Option.all_some, Bool.and_eq_true, decide_eq_true_eq] at hspaceless
    simp only [hpair] at hwithin ⊢
    have hcloses : Text.startsWith closer (shared ++ ' ' :: text) = Text.startsWith closer (shared ++ old) :=
      Text.startsWith_swap hspaceless.1.2.2 fun hold => by rwa [if_pos hold] at hwithin
    rw [hcloses]
    by_cases hclosed : Text.startsWith closer (shared ++ old) = true
    · rw [if_pos hclosed, if_pos hclosed]
    rw [if_neg hclosed] at hwithin
    rw [if_neg hclosed, if_neg hclosed]
    cases hnests : lexicon.nestedComments with
    | false => rfl
    | true =>
      simp only [hnests, Bool.true_and] at hwithin ⊢
      have hopens : Text.startsWith opener (shared ++ ' ' :: text) = Text.startsWith opener (shared ++ old) :=
        Text.startsWith_swap hspaceless.1.2.1 fun hold => by rwa [if_pos hold] at hwithin
      rw [hopens]

theorem blockCommentOpener?_swap {shared : Text} (hspaceless : lexicon.isSpaceless = true)
    (hwithin : ∀ length, lexicon.blockCommentOpener? (shared ++ old) = some length → length ≤ shared.length) :
    lexicon.blockCommentOpener? (shared ++ ' ' :: text) = lexicon.blockCommentOpener? (shared ++ old) := by
  unfold blockCommentOpener? at hwithin ⊢
  cases hpair : lexicon.blockComment with
  | none => rfl
  | some marks =>
    obtain ⟨opener, closer⟩ := marks
    simp only [isSpaceless, hpair, Option.all_some, Bool.and_eq_true, decide_eq_true_eq] at hspaceless
    simp only [hpair] at hwithin ⊢
    have hopens : Text.startsWith opener (shared ++ ' ' :: text) = Text.startsWith opener (shared ++ old) :=
      Text.startsWith_swap hspaceless.1.2.1 fun hold => hwithin _ (if_pos hold)
    rw [hopens]

/-- Where no comment up to the end of the line begins, none begins with another text further on. -/
theorem startsLineComment_swap {shared : Text} (hspaceless : lexicon.isSpaceless = true) (hroom : 2 ≤ shared.length)
    (hnone : lexicon.startsLineComment (shared ++ old) = false) :
    lexicon.startsLineComment (shared ++ ' ' :: text) = false := by
  have hattribute : Text.startsWith ['#', '['] (shared ++ ' ' :: text) = Text.startsWith ['#', '['] (shared ++ old) :=
    Text.startsWith_swap (by decide) fun _ => hroom
  simp only [isSpaceless, Bool.and_eq_true] at hspaceless
  unfold startsLineComment at hnone ⊢
  rw [Bool.and_eq_false_iff] at hnone ⊢
  rw [hattribute]
  refine hnone.imp_right fun hmarks => List.any_eq_false.2 fun other hmem hstarts => ?_
  have hother := Text.isPrefix_of_isPrefix_append (of_decide_eq_true (List.all_eq_true.1 hspaceless.1.1 other hmem))
    (Text.startsWith_iff.1 hstarts)
  exact List.any_eq_false.1 hmarks other hmem (Text.startsWith_iff.2 (hother.trans (List.prefix_append _ _)))

/-- What a reader does in code ahead of a comment does not depend on the text of the comment. -/
theorem codeMove_swap (hspaceless : lexicon.isSpaceless = true) (htail : tail ≠ []) (hmark : mark ≠ [])
    (hends : ∀ length, lexicon.charLiteral? (tail ++ mark ++ ' ' :: text) = some length →
      length ≤ (tail ++ mark).length)
    (hwithin : (lexicon.codeMove before (tail ++ mark ++ old)).Within (tail ++ mark).length) :
    lexicon.codeMove before (tail ++ mark ++ ' ' :: text) = lexicon.codeMove before (tail ++ mark ++ old) := by
  have hroom : 2 ≤ (tail ++ mark).length := by
    have hone := List.length_pos_iff.2 htail
    have htwo := List.length_pos_iff.2 hmark
    rw [List.length_append]
    omega
  have hstrings : ∀ rule ∈ lexicon.strings, rule.isSpaceless = true := by
    simp only [isSpaceless, Bool.and_eq_true] at hspaceless
    exact List.all_eq_true.1 hspaceless.2
  unfold codeMove at hwithin ⊢
  have hblock : lexicon.blockCommentOpener? (tail ++ mark ++ ' ' :: text) =
      lexicon.blockCommentOpener? (tail ++ mark ++ old) :=
    blockCommentOpener?_swap hspaceless fun length hopener => by simpa only [hopener, Move.Within] using hwithin
  rw [hblock]
  cases hopener : lexicon.blockCommentOpener? (tail ++ mark ++ old) with
  | some length => rfl
  | none =>
    simp only [hopener] at hwithin
    cases hline : lexicon.startsLineComment (tail ++ mark ++ old) with
    | true => simp only [hline, if_true, Move.Within] at hwithin
    | false =>
      have hnone : lexicon.startsLineComment (tail ++ mark ++ ' ' :: text) = false :=
        startsLineComment_swap hspaceless hroom hline
      simp only [hline, Bool.false_eq_true, if_false] at hwithin
      simp only [hnone, Bool.false_eq_true, if_false]
      have hliteral : lexicon.strings.findSome? (StringRule.open? before (tail ++ mark ++ ' ' :: text)) =
          lexicon.strings.findSome? (StringRule.open? before (tail ++ mark ++ old)) := by
        refine findSome?_eq_of_within (fun found => found.1 ≤ (tail ++ mark).length)
          (fun rule hmem hone => StringRule.open?_swap (hstrings rule hmem) hroom hone) fun found hfound => ?_
        simpa only [hfound, Move.Within] using hwithin
      rw [hliteral]
      cases hopens : lexicon.strings.findSome? (StringRule.open? before (tail ++ mark ++ old)) with
      | some found => rfl
      | none =>
        simp only [hopens] at hwithin
        have hchar : lexicon.charLiteral? (tail ++ mark ++ ' ' :: text) =
            lexicon.charLiteral? (tail ++ mark ++ old) :=
          charLiteral?_swap (List.append_ne_nil_of_left_ne_nil htail mark) hends fun length hlength => by
            simpa only [hlength, Move.Within] using hwithin
        rw [hchar]

/-- What a reader does ahead of a comment does not depend on the text of the comment. -/
theorem move_swap (hspaceless : lexicon.isSpaceless = true) (hstate : lexicon.Possible state) (htail : tail ≠ [])
    (hmark : mark ≠ [])
    (hends : state = .code → ∀ length, lexicon.charLiteral? (tail ++ mark ++ ' ' :: text) = some length →
      length ≤ (tail ++ mark).length)
    (hwithin : (lexicon.move state before (tail ++ mark ++ old)).Within (tail ++ mark).length) :
    lexicon.move state before (tail ++ mark ++ ' ' :: text) = lexicon.move state before (tail ++ mark ++ old) := by
  cases state with
  | code => exact codeMove_swap hspaceless htail hmark (hends rfl) hwithin
  | comment depth => exact commentMove_swap hspaceless hwithin
  | literal close escapes multiline =>
    obtain ⟨rule, hmem, hcloses⟩ := hstate
    simp only [isSpaceless, Bool.and_eq_true] at hspaceless
    have hclose := hcloses.space_not_mem (List.all_eq_true.1 hspaceless.2 rule hmem)
    have hroom : 0 < (tail ++ mark).length := List.length_pos_iff.2 fun hnil => htail (List.append_eq_nil_iff.1 hnil).1
    exact literalMove_swap hclose hroom hwithin

end Moves

section Readings

/-- A token takes a reader on without delivering anything. -/
theorem readFrom_token (hmarks : lexicon.hasMarks = true) (hstate : lexicon.Possible state) {rest : Text}
    (hrest : rest ≠ []) {length : Nat} {next : LexState}
    (hmove : lexicon.move state before rest = .token length next) (offset : Nat) :
    lexicon.readFrom 0 offset state before rest =
      .after [] 1 (lexicon.readFrom 0 (offset + Text.byteSize (rest.take length)) next
        ((rest.take length).reverse ++ before) (rest.drop length)) := by
  obtain ⟨c, rest, rfl⟩ := List.exists_cons_of_ne_nil hrest
  obtain ⟨length, rfl⟩ := Nat.exists_eq_succ_of_ne_zero (Nat.ne_of_gt ((token_of_move hstate hmove).2 hmarks))
  rw [readFrom, settledMove?_eq hmarks hstate, hmove]
  simp only [Nat.succ_sub_one]
  rw [readFrom_skip]
  simp [Reading.after, Nat.add_assoc]

theorem readFrom_code (hmarks : lexicon.hasMarks = true) {c : Char} {rest : Text}
    (hmove : lexicon.codeMove before (c :: rest) = .code) (offset : Nat) :
    lexicon.readFrom 0 offset .code before (c :: rest) =
      .after [(offset, c)] 1 (lexicon.readFrom 0 (offset + c.utf8Size) .code (c :: before) rest) := by
  have hcode : lexicon.move .code before (c :: rest) = .code := hmove
  rw [readFrom, settledMove?_eq hmarks possible_code, hcode]
  rfl

theorem readFrom_endLine (hmarks : lexicon.hasMarks = true) {rest : Text} (hrest : rest ≠ [])
    (hmove : lexicon.codeMove before rest = .endLine) (offset : Nat) :
    lexicon.readFrom 0 offset .code before rest = ⟨[], 1, .code, true⟩ := by
  obtain ⟨c, rest, rfl⟩ := List.exists_cons_of_ne_nil hrest
  have hend : lexicon.move .code before (c :: rest) = .endLine := hmove
  rw [readFrom, settledMove?_eq hmarks possible_code, hend]

/-- In the line with the text `new` in place of the text `old` of its comment, no character literal that begins in
front of the comment reaches into it. -/
def LiteralsEnd (lexicon : Lexicon) (first : LexState) (front mark old new : Text) : Prop :=
  ∀ before tail, lexicon.Stands first (front ++ mark ++ old) before (tail ++ mark ++ old) .code →
    ∀ length, lexicon.charLiteral? (tail ++ mark ++ new) = some length → length ≤ (tail ++ mark).length

/-- Up to the mark of a comment a reader goes the same way, whatever the text of the comment. -/
theorem Stands.exists_after {first : LexState} {front rest : Text} (hmarks : lexicon.hasMarks = true)
    (hspaceless : lexicon.isSpaceless = true) (hfirst : lexicon.Possible first) (hmark : mark ≠ [])
    (hliterals : lexicon.LiteralsEnd first front mark old (' ' :: text))
    (hstands : lexicon.Stands first (front ++ mark ++ old) before rest state)
    (hrest : rest = tail ++ mark ++ old) :
    ∃ code steps,
      lexicon.readLine first (front ++ mark ++ old) =
        .after code steps (lexicon.readFrom 0 (Text.byteSize before) state before (tail ++ mark ++ old)) ∧
      lexicon.readLine first (front ++ mark ++ ' ' :: text) =
        .after code steps (lexicon.readFrom 0 (Text.byteSize before) state before (tail ++ mark ++ ' ' :: text)) := by
  induction hstands generalizing tail with
  | start =>
    obtain rfl : front = tail := List.append_cancel_right (List.append_cancel_right hrest)
    exact ⟨[], 0, by simp [readLine, Reading.after], by simp [readLine, Reading.after]⟩
  | @code before rest c hstands hmove ih =>
    subst hrest
    obtain ⟨code, steps, hold, hnew⟩ := ih (show c :: (tail ++ mark ++ old) = c :: tail ++ mark ++ old from rfl)
    have hmove' : lexicon.codeMove before (c :: (tail ++ mark ++ ' ' :: text)) = .code := by
      have hswap := codeMove_swap hspaceless (List.cons_ne_nil c tail) hmark (hliterals before (c :: tail) hstands)
        (by rw [List.cons_append, List.cons_append, hmove]; trivial)
      exact hswap.trans hmove
    have hsize : Text.byteSize (c :: before) = Text.byteSize before + c.utf8Size := Nat.add_comm _ _
    refine ⟨code ++ [(Text.byteSize before, c)], steps + 1, ?_, ?_⟩
    · rw [hold, hsize, ← Reading.after_after, ← readFrom_code hmarks hmove]
      rfl
    · rw [hnew, hsize, ← Reading.after_after, ← readFrom_code hmarks hmove']
      rfl
  | @token before rest state next length hstands hmove ih =>
    have hstate := hstands.possible hfirst
    have hpos := (token_of_move hstate hmove).2 hmarks
    -- the token ends before the mark, so it lies in what the two lines share
    have hlength : (rest.take length).length = length := by
      have hsome : 0 < (rest.drop length).length := by
        rw [hrest]
        exact List.length_pos_iff.2 (by simp [hmark])
      rw [List.length_drop] at hsome
      rw [List.length_take]
      omega
    have hparts : rest = rest.take length ++ tail ++ mark ++ old := by
      conv_lhs => rw [← List.take_append_drop length rest, hrest]
      simp
    have htail : rest.take length ++ tail ≠ [] := fun hnil => by
      have := congrArg List.length hnil
      simp [hlength] at this
      omega
    obtain ⟨code, steps, hold, hnew⟩ := ih hparts
    rw [hparts] at hstands hmove
    have hmove' : lexicon.move state before (rest.take length ++ tail ++ mark ++ ' ' :: text) = .token length next := by
      rw [move_swap hspaceless hstate htail hmark fun hcode => hliterals before _ (hcode ▸ hstands), hmove]
      rw [hmove, Move.Within]
      simp [hlength]
    have htake (x : Text) : (rest.take length ++ tail ++ mark ++ x).take length = rest.take length := by
      rw [List.append_assoc, List.append_assoc, List.take_left' hlength]
    have hdrop (x : Text) : (rest.take length ++ tail ++ mark ++ x).drop length = tail ++ mark ++ x := by
      rw [List.append_assoc, List.append_assoc, List.drop_left' hlength, List.append_assoc]
    have hsize : Text.byteSize ((rest.take length).reverse ++ before) =
        Text.byteSize before + Text.byteSize (rest.take length) := by
      rw [Text.byteSize_append, Text.byteSize_reverse, Nat.add_comm]
    have hnil (x : Text) : rest.take length ++ tail ++ mark ++ x ≠ [] := by simp [hmark]
    refine ⟨code ++ [], steps + 1, ?_, ?_⟩
    · rw [hold, readFrom_token hmarks hstate (hnil old) hmove, htake, hdrop, Reading.after_after, hsize]
    · rw [hnew, readFrom_token hmarks hstate (hnil _) hmove', htake, hdrop, Reading.after_after, hsize]

theorem possible_stateFrom (hmarks : lexicon.hasMarks = true) (lines : List Text) (first index : Nat) :
    lexicon.Possible (lexicon.stateFrom lines first index) := by
  rw [stateFrom, stateAt]
  refine List.foldlRecOn _ _ possible_code fun state hstate line _ => (state_readLine hmarks hstate line).1

theorem codeMove_eq_endLine_iff {rest : Text} :
    lexicon.codeMove before rest = .endLine ↔
      lexicon.blockCommentOpener? rest = none ∧ lexicon.startsLineComment rest = true := by
  unfold codeMove
  cases lexicon.blockCommentOpener? rest with
  | some length => simp
  | none =>
    cases lexicon.startsLineComment rest with
    | true => simp
    | false =>
      simp only [Bool.false_eq_true, if_false, and_false, iff_false]
      split
      · simp
      · split <;> simp

/-- A reader who began a line in the state `first` meets a comment with the text `old`, behind its mark and the text
`front`. -/
structure CommentAt (lexicon : Lexicon) (first : LexState) (front mark old : Text) : Prop where
  mark_mem : mark ∈ lexicon.lineComments
  stands : lexicon.Stands first (front ++ mark ++ old) front.reverse (mark ++ old) .code
  endLine : lexicon.codeMove front.reverse (mark ++ old) = .endLine

/-- Where a comment begins, a comment with a text that begins with a space would begin as well. -/
theorem codeMove_endLine_swap (hspaceless : lexicon.isSpaceless = true) (hmem : mark ∈ lexicon.lineComments)
    (hend : lexicon.codeMove before (mark ++ old) = .endLine) :
    lexicon.codeMove before (mark ++ ' ' :: text) = .endLine := by
  obtain ⟨hblock, hline⟩ := codeMove_eq_endLine_iff.1 hend
  refine codeMove_eq_endLine_iff.2 ⟨?_, ?_⟩
  · have hwithin : ∀ length, lexicon.blockCommentOpener? (mark ++ old) = some length → length ≤ mark.length := by
      simp [hblock]
    rw [blockCommentOpener?_swap hspaceless hwithin, hblock]
  · simp only [startsLineComment, Bool.and_eq_true, Bool.not_eq_true', Bool.and_eq_false_iff] at hline ⊢
    refine ⟨hline.1.imp_right fun hnone => ?_, List.any_eq_true.2 ⟨mark, hmem, ?_⟩⟩
    · rw [Bool.eq_false_iff, ne_eq, Text.startsWith_iff] at hnone ⊢
      exact fun hstarts => hnone ((Text.isPrefix_of_isPrefix_append (by decide) hstarts).trans (List.prefix_append _ _))
    · exact Text.startsWith_iff.2 (List.prefix_append _ _)

/-- A comment that begins with a space is read like the comment in whose place it stands, if no character literal
reaches into it. -/
theorem CommentAt.readLine_eq {first : LexState} {front : Text} (hcomment : lexicon.CommentAt first front mark old)
    (hmarks : lexicon.hasMarks = true) (hspaceless : lexicon.isSpaceless = true) (hfirst : lexicon.Possible first)
    (hmark : mark ≠ []) (hliterals : lexicon.LiteralsEnd first front mark old (' ' :: text)) :
    lexicon.readLine first (front ++ mark ++ ' ' :: text) = lexicon.readLine first (front ++ mark ++ old) := by
  have hnil (comment : Text) : mark ++ comment ≠ [] := by simp [hmark]
  obtain ⟨code, steps, hold, hnew⟩ := hcomment.stands.exists_after hmarks hspaceless hfirst hmark hliterals
    (show mark ++ old = [] ++ mark ++ old from rfl)
  rw [List.nil_append, readFrom_endLine hmarks (hnil old) hcomment.endLine] at hold
  rw [List.nil_append, readFrom_endLine hmarks (hnil _)
    (codeMove_endLine_swap hspaceless hcomment.mark_mem hcomment.endLine)] at hnew
  rw [hold, hnew]

end Readings

end Lexicon

end Outline
