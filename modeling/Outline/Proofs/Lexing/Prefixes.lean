import Outline.Proofs.Lexing.RawLiterals

namespace Outline

section Behind

variable {before behind rest : Text}

theorem nameBefore_append (hbehind : ∀ c ∈ behind.head?, isNameChar c = false) (before : Text) :
    nameBefore (before ++ behind) = nameBefore before := by
  induction before with
  | nil => exact Literal.nameBefore_eq_nil hbehind
  | cons c before ih =>
    rw [nameBefore, nameBefore, List.cons_append, List.takeWhile_cons, List.takeWhile_cons]
    exact congrArg (fun word => if isNameChar c then c :: word else []) ih

theorem StringRule.open?_append (hbehind : ∀ c ∈ behind.head?, isNameChar c = false) (before rest : Text)
    (rule : StringRule) : open? (before ++ behind) rest rule = open? before rest rule := by
  have hfence (minHashes : Nat) (triple : Bool) : openFence? (before ++ behind) rest minHashes triple =
      openFence? before rest minHashes triple := by
    funext opener
    simp only [openFence?, nameBefore_append hbehind]
  cases rule with
  | quoted => rfl
  | fenced openers minHashes triple => simp only [open?, hfence]
  | tagged => simp only [open?, openTag?, nameBefore_append hbehind]

namespace Lexicon

variable {lexicon : Lexicon}

theorem move_append (hbehind : ∀ c ∈ behind.head?, isNameChar c = false) (state : LexState) (before rest : Text) :
    lexicon.move state (before ++ behind) rest = lexicon.move state before rest := by
  cases state with
  | code =>
    have hopen : StringRule.open? (before ++ behind) rest = StringRule.open? before rest :=
      funext (StringRule.open?_append hbehind before rest)
    simp only [move, codeMove, hopen]
  | comment => rfl
  | literal => rfl

theorem settledMove?_append (hbehind : ∀ c ∈ behind.head?, isNameChar c = false) (before rest : Text) (patience : Nat)
    (state : LexState) :
    lexicon.settledMove? (before ++ behind) rest patience state = lexicon.settledMove? before rest patience state := by
  induction patience generalizing state with
  | zero => rw [settledMove?, settledMove?, move_append hbehind]
  | succ patience ih =>
    rw [settledMove?, settledMove?, move_append hbehind]
    simp only [ih]

/-- What stands before a word edge, and at which byte a reader is, changes nothing of which characters are code. -/
theorem readFrom_append (hbehind : ∀ c ∈ behind.head?, isNameChar c = false) (lexicon : Lexicon)
    (skip offset offset' : Nat) (state : LexState) (before rest : Text) :
    (lexicon.readFrom skip offset state (before ++ behind) rest).codeText =
        (lexicon.readFrom skip offset' state before rest).codeText ∧
      (lexicon.readFrom skip offset state (before ++ behind) rest).state =
        (lexicon.readFrom skip offset' state before rest).state := by
  induction rest generalizing skip offset offset' state before with
  | nil => simp [readFrom, Reading.codeText]
  | cons c rest ih =>
    cases skip with
    | succ skip => exact ih skip _ _ state (c :: before)
    | zero =>
      rw [readFrom, readFrom, settledMove?_append hbehind]
      split
      · exact ⟨rfl, rfl⟩
      · exact ⟨rfl, rfl⟩
      · obtain ⟨hcode, hstate⟩ := ih 0 (offset + c.utf8Size) (offset' + c.utf8Size) .code (c :: before)
        exact ⟨congrArg (c :: ·) hcode, hstate⟩
      · exact ih _ _ _ _ (c :: before)

end Lexicon

end Behind

section Plain

/-- Quotes, slashes and number signs, which comments and literals need. -/
def isLiteralMark (c : Char) : Bool :=
  c == '"' || c == '\'' || c == '/' || c == '#'

/-- Text without the characters that comments and literals need. -/
def Text.Plain (t : Text) : Prop :=
  ∀ c ∈ t, isLiteralMark c = false

/-- Whether the text holds a character that comments and literals need, and no space. -/
def Text.isMarked (t : Text) : Bool :=
  ' ' ∉ t && t.any isLiteralMark

/-- Whether the opening of every literal of the rule needs one of the marks. -/
def StringRule.opensMarked : StringRule → Bool
  | .quoted opener _ _ _ => opener.isMarked
  | .fenced openers _ _ => openers.all (' ' ∉ ·)
  | .tagged => true

/-- Whether every comment and literal needs one of the marks to begin. -/
def Lexicon.opensMarked (lexicon : Lexicon) : Bool :=
  lexicon.lineComments.all Text.isMarked &&
    (lexicon.blockComment.all (fun marks => marks.1.isMarked) && lexicon.strings.all StringRule.opensMarked)

variable {t opening : Text}

/-- What needs a mark does not begin within plain text. -/
theorem Text.Plain.not_prefix (hplain : t.Plain) (hopening : opening.isMarked = true) (rest : Text) :
    ¬ opening <+: t ++ ' ' :: rest := by
  simp only [isMarked, Bool.and_eq_true, decide_eq_true_eq, List.any_eq_true] at hopening
  obtain ⟨hspace, c, hmem, hmark⟩ := hopening
  intro hbegins
  have hwithin := Text.isPrefix_of_isPrefix_append hspace hbegins
  rw [hplain c (hwithin.subset hmem)] at hmark
  cases hmark

theorem Text.Plain.startsWith_eq_false (hplain : t.Plain) (hopening : opening.isMarked = true) (rest : Text) :
    Text.startsWith opening (t ++ ' ' :: rest) = false :=
  Bool.eq_false_iff.2 fun hstarts => hplain.not_prefix hopening rest (Text.startsWith_iff.1 hstarts)

/-- Behind plain text there is no mark if there is a space. -/
theorem Text.Plain.exists_cons (hplain : t.Plain) (rest : Text) :
    ∃ c later, t ++ ' ' :: rest = c :: later ∧ isLiteralMark c = false := by
  cases t with
  | nil => exact ⟨' ', rest, rfl, rfl⟩
  | cons c t => exact ⟨c, t ++ ' ' :: rest, rfl, hplain c List.mem_cons_self⟩

namespace StringRule

/-- Behind an opener in plain text there is neither a fence nor a quote. -/
theorem openFence?_plain (hplain : t.Plain) (hopening : ' ' ∉ opening) (before rest : Text) (minHashes : Nat)
    (triple : Bool) : openFence? before (t ++ ' ' :: rest) minHashes triple opening = none := by
  cases hstrip : Text.strip? opening (t ++ ' ' :: rest) with
  | none => rw [openFence?, hstrip]
  | some after =>
    have heq := Text.strip?_eq_some_iff.1 hstrip
    obtain ⟨more, rfl⟩ := Text.isPrefix_of_isPrefix_append hopening ⟨after, heq.symm⟩
    rw [List.append_assoc] at heq
    obtain rfl := List.append_cancel_left heq
    obtain ⟨c, later, heq, hc⟩ :=
      Text.Plain.exists_cons (fun c hmem => hplain c (List.mem_append_right opening hmem)) rest
    have hhash : (c == '#') = false := beq_eq_false_iff_ne.2 fun heq => by simp [heq, isLiteralMark] at hc
    have hquote : '"' ≠ c := fun heq => by simp [← heq, isLiteralMark] at hc
    rw [openFence?, hstrip, heq]
    simp [hhash, Text.startsWith, Text.strip?, hquote]

theorem open?_plain (hplain : t.Plain) {rule : StringRule} (hrule : rule.opensMarked = true) (before rest : Text) :
    open? before (t ++ ' ' :: rest) rule = none := by
  cases rule with
  | quoted opener closer escapes multiline => rw [open?, if_neg (by simp [hplain.startsWith_eq_false hrule])]
  | fenced openers minHashes triple =>
    rw [open?, List.findSome?_eq_none_iff]
    intro opener hmem
    have hopener := of_decide_eq_true (List.all_eq_true.1 hrule opener hmem)
    exact openFence?_plain hplain hopener before rest minHashes triple
  | tagged =>
    have hmarked : Text.isMarked ['R', '"'] = true := by decide
    have hnone := hplain.not_prefix hmarked rest
    rw [open?, openTag?, Text.strip?_eq_none hnone]

end StringRule

namespace Lexicon

variable {lexicon : Lexicon}

/-- Nothing but code begins within plain text. -/
theorem codeMove_plain (hmarked : lexicon.opensMarked = true) (hplain : t.Plain) (before rest : Text) :
    lexicon.codeMove before (t ++ ' ' :: rest) = .code := by
  simp only [opensMarked, Bool.and_eq_true] at hmarked
  obtain ⟨hline, hblock, hstrings⟩ := hmarked
  have hcomment : lexicon.blockCommentOpener? (t ++ ' ' :: rest) = none := by
    cases hmarks : lexicon.blockComment with
    | none => rw [blockCommentOpener?, hmarks]
    | some marks =>
      rw [hmarks, Option.all_some] at hblock
      simp only [blockCommentOpener?, hmarks, hplain.startsWith_eq_false hblock]
      rfl
  have hrest : lexicon.startsLineComment (t ++ ' ' :: rest) = false := by
    rw [startsLineComment, Bool.and_eq_false_iff]
    refine .inr (List.any_eq_false.2 fun mark hmem => ?_)
    rw [hplain.startsWith_eq_false (List.all_eq_true.1 hline mark hmem)]
    exact Bool.false_ne_true
  have hliteral : lexicon.strings.findSome? (StringRule.open? before (t ++ ' ' :: rest)) = none := by
    rw [List.findSome?_eq_none_iff]
    intro rule hmem
    exact StringRule.open?_plain hplain (List.all_eq_true.1 hstrings rule hmem) before rest
  have hchar : lexicon.charLiteral? (t ++ ' ' :: rest) = none := by
    obtain ⟨c, later, heq, hc⟩ := hplain.exists_cons rest
    have hquote : c ≠ '\'' := fun heq => by simp [heq, isLiteralMark] at hc
    simp [heq, charLiteral?, hquote]
  rw [codeMove, hcomment]
  simp only [hrest, Bool.false_eq_true, if_false, hliteral, hchar]

theorem readFrom_of_code {before rest : Text} {c : Char} (hcode : lexicon.codeMove before (c :: rest) = .code)
    (offset : Nat) :
    (lexicon.readFrom 0 offset .code before (c :: rest)).codeText =
        c :: (lexicon.readFrom 0 (offset + c.utf8Size) .code (c :: before) rest).codeText ∧
      (lexicon.readFrom 0 offset .code before (c :: rest)).state =
        (lexicon.readFrom 0 (offset + c.utf8Size) .code (c :: before) rest).state := by
  have hmove : lexicon.move .code before (c :: rest) = .code := hcode
  have hsettled : lexicon.settledMove? before (c :: rest) LexState.code.patience .code = some (1, .code) := by
    rw [settledMove?, hmove]
  rw [readFrom, hsettled]
  exact ⟨rfl, rfl⟩

/-- Plain text and a space in code are delivered, and what follows is read as a line of its own. -/
theorem readFrom_plain (hmarked : lexicon.opensMarked = true) (hplain : t.Plain) (offset : Nat) (before line : Text) :
    (lexicon.readFrom 0 offset .code before (t ++ ' ' :: line)).codeText =
        t ++ ' ' :: (lexicon.readLine .code line).codeText ∧
      (lexicon.readFrom 0 offset .code before (t ++ ' ' :: line)).state = (lexicon.readLine .code line).state := by
  have hcode : lexicon.codeMove before (t ++ ' ' :: line) = .code := codeMove_plain hmarked hplain before line
  induction t generalizing offset before with
  | nil =>
    have hspace : ∀ c ∈ (' ' :: before).head?, isNameChar c = false := by
      rintro c ⟨⟩
      decide
    obtain ⟨hline, hstate⟩ := readFrom_append hspace lexicon 0 (offset + 1) 0 .code [] line
    obtain ⟨htaken, hnext⟩ := readFrom_of_code hcode offset
    exact ⟨htaken.trans (congrArg _ hline), hnext.trans hstate⟩
  | cons c t ih =>
    obtain ⟨-, hplain⟩ := List.forall_mem_cons.1 hplain
    obtain ⟨htext, hstate⟩ := ih hplain (offset + c.utf8Size) (c :: before) (codeMove_plain hmarked hplain _ _)
    obtain ⟨htaken, hnext⟩ := readFrom_of_code hcode offset
    exact ⟨htaken.trans (congrArg _ htext), hnext.trans hstate⟩

end Lexicon

end Plain

end Outline
