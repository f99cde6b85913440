import Outline.Proofs.Grammar.Names

namespace Outline

theorem LexState.inCode_iff {state : LexState} : state.inCode = true ↔ state = .code := by
  cases state <;> simp [inCode]

section Blank

/-- Whether the text begins with a character that is no white space. -/
def Text.opensVisibly : Text → Bool
  | [] => false
  | c :: _ => !isBlank c

/-- Whether a literal of the rule never begins with white space. -/
def StringRule.opensVisibly : StringRule → Bool
  | .quoted opener _ _ _ => Text.opensVisibly opener
  | .fenced openers _ _ => openers.all fun opener => opener.isEmpty || Text.opensVisibly opener
  | .tagged => true

/-- Whether comments and literals never begin with white space. -/
def Lexicon.opensVisibly (lexicon : Lexicon) : Bool :=
  lexicon.lineComments.all Text.opensVisibly && lexicon.blockComment.all (fun marks => Text.opensVisibly marks.1) &&
    lexicon.strings.all StringRule.opensVisibly

variable {c : Char} {mark rest : Text}

theorem Text.strip?_blank (hmark : mark.opensVisibly = true) (hc : isBlank c = true) :
    Text.strip? mark (c :: rest) = none := by
  cases mark with
  | nil => exact Bool.noConfusion hmark
  | cons first mark =>
    have hne : first ≠ c := by
      rintro rfl
      simp [opensVisibly, hc] at hmark
    rw [strip?, if_neg hne]

theorem Text.startsWith_blank (hmark : mark.opensVisibly = true) (hc : isBlank c = true) :
    Text.startsWith mark (c :: rest) = false := by
  rw [startsWith, strip?_blank hmark hc, Option.isSome_none]

namespace StringRule

theorem openFence?_blank {opener : Text} (hopener : (opener.isEmpty || opener.opensVisibly) = true)
    (hc : isBlank c = true) (before : Text) (minHashes : Nat) (triple : Bool) :
    openFence? before (c :: rest) minHashes triple opener = none := by
  rcases Bool.or_eq_true_iff.1 hopener with hempty | hvisible
  · obtain rfl := List.isEmpty_iff.1 hempty
    have hhash : (c == '#') = false := by
      rw [beq_eq_false_iff_ne]
      rintro rfl
      exact Bool.noConfusion hc
    have hquote : Text.startsWith ['"'] (c :: rest) = false := Text.startsWith_blank (by decide) hc
    have hquotes : Text.startsWith ['"', '"', '"'] (c :: rest) = false := Text.startsWith_blank (by decide) hc
    simp [openFence?, Text.strip?, hhash, hquote, hquotes]
  · rw [openFence?, Text.strip?_blank hvisible hc]

theorem open?_blank {rule : StringRule} (hrule : rule.opensVisibly = true) (hc : isBlank c = true)
    (before : Text) : open? before (c :: rest) rule = none := by
  cases rule with
  | quoted opener close escapes multiline =>
    rw [open?, Text.startsWith_blank hrule hc]
    rfl
  | fenced openers minHashes triple =>
    rw [open?, List.findSome?_eq_none_iff]
    intro opener hmem
    exact openFence?_blank (List.all_eq_true.1 hrule opener hmem) hc before minHashes triple
  | tagged => rw [open?, openTag?, Text.strip?_blank (by decide) hc]

end StringRule

namespace Lexicon

variable {lexicon : Lexicon}

/-- White space in code is code. -/
theorem codeMove_blank (hlexicon : lexicon.opensVisibly = true) (hc : isBlank c = true) (before : Text) :
    lexicon.codeMove before (c :: rest) = .code := by
  simp only [opensVisibly, Bool.and_eq_true] at hlexicon
  obtain ⟨⟨hline, hblock⟩, hstrings⟩ := hlexicon
  have hcomment : lexicon.blockCommentOpener? (c :: rest) = none := by
    cases hmarks : lexicon.blockComment with
    | none => rw [blockCommentOpener?, hmarks]
    | some marks =>
      rw [hmarks, Option.all_some] at hblock
      simp only [blockCommentOpener?, hmarks, Text.startsWith_blank hblock hc]
      rfl
  have hrest : lexicon.startsLineComment (c :: rest) = false := by
    rw [startsLineComment, Bool.and_eq_false_iff]
    refine .inr (List.any_eq_false.2 fun mark hmem => ?_)
    rw [Text.startsWith_blank (List.all_eq_true.1 hline mark hmem) hc]
    exact Bool.false_ne_true
  have hliteral : lexicon.strings.findSome? (StringRule.open? before (c :: rest)) = none := by
    rw [List.findSome?_eq_none_iff]
    intro rule hmem
    exact StringRule.open?_blank (List.all_eq_true.1 hstrings rule hmem) hc before
  have hchar : lexicon.charLiteral? (c :: rest) = none := by
    unfold charLiteral?
    split
    · next heq =>
      obtain ⟨rfl, _⟩ := List.cons.inj heq
      exact Bool.noConfusion hc
    · rfl
  rw [codeMove, hcomment]
  simp only [hrest, Bool.false_eq_true, if_false, hliteral, hchar]

theorem state_readFrom_blank (hlexicon : lexicon.opensVisibly = true) {line : Text}
    (hblank : ∀ c ∈ line, isBlank c = true) (offset : Nat) (before : Text) :
    (lexicon.readFrom 0 offset .code before line).state = .code := by
  induction line generalizing offset before with
  | nil => rfl
  | cons c line ih =>
    have hmove : lexicon.move .code before (c :: line) = .code :=
      codeMove_blank hlexicon (hblank c List.mem_cons_self) before
    have hsettled : lexicon.settledMove? before (c :: line) LexState.code.patience .code = some (1, .code) := by
      rw [settledMove?, hmove]
    rw [readFrom, hsettled]
    exact ih (fun d hmem => hblank d (List.mem_cons_of_mem c hmem)) _ _

/-- A blank line that begins in code leaves the reader in code. -/
theorem state_readLine_blank (hlexicon : lexicon.opensVisibly = true) {line : Text}
    (hblank : (Text.trim line).isEmpty = true) : (lexicon.readLine .code line).state = .code := by
  refine state_readFrom_blank hlexicon (fun c hmem => ?_) 0 []
  cases hc : isBlank c with
  | true => rfl
  | false => exact absurd hblank (Text.IsVisible.trim_ne ⟨c, hmem, hc⟩)

end Lexicon

/-- In every language, comments and literals begin with a character that is no white space. -/
theorem Language.opensVisibly_lexicon (language : Language) : language.grammar.lexicon.opensVisibly = true := by
  cases language <;> decide

end Blank

namespace Lexicon

/-- The state in which the line of the given index begins, when all the lines before it are read from code on. -/
def stateAt (lexicon : Lexicon) (lines : List Text) (index : Nat) : LexState :=
  (lines.take index).foldl (fun state line => (lexicon.readLine state line).state) .code

variable (lexicon : Lexicon) {lines : List Text}

theorem stateAt_zero : lexicon.stateAt lines 0 = .code := rfl

theorem stateAt_succ {index : Nat} {line : Text} {rest : List Text} (hline : lines.drop index = line :: rest) :
    lexicon.stateAt lines (index + 1) = (lexicon.readLine (lexicon.stateAt lines index) line).state := by
  have hget : lines[index]? = some line := by
    rw [← List.head?_drop, hline, List.head?_cons]
  rw [stateAt, List.take_add_one, hget, Option.toList_some, List.foldl_append, List.foldl_cons, List.foldl_nil,
    stateAt]

end Lexicon

end Outline
