import Outline.Proofs.Extent.Alike
import Outline.Proofs.Extent.Indentation
import Outline.Proofs.Lexing.Comments

namespace Outline

section Ends

theorem any_congr_of_mem {α : Type} {p q : α → Bool} {list : List α} (heq : ∀ a ∈ list, p a = q a) :
    list.any p = list.any q := by
  rw [Bool.eq_iff_iff, List.any_eq_true, List.any_eq_true]
  exact exists_congr fun a => and_congr_right fun hmem => by rw [heq a hmem]

/-- Marks at the end of a line that carry on the head of a declaration. -/
def headMarks : List Text :=
  [[','], ['-', '>'], [':']]

/-- Whether a text ends in a mark that carries on the head of a declaration. -/
def endsInHeadMark (t : Text) : Bool :=
  headMarks.any fun mark => Text.endsWith mark (Text.trimEnd t)

/-- Two texts of comments that both carry on a head or not, and both carry on an expression or not. -/
structure EndAlike (old new : Text) : Prop where
  endsInHeadMark_eq : endsInHeadMark new = endsInHeadMark old
  continuesExpression_eq : continuesExpression new = continuesExpression old

/-- In every language comments up to the end of the line begin with one of two marks. -/
theorem Language.lineComment_cases (language : Language) {mark : Text}
    (hmem : mark ∈ language.grammar.lexicon.lineComments) : mark = ['/', '/'] ∨ mark = ['#'] := by
  have hall : ∀ mark ∈ language.grammar.lexicon.lineComments, mark = ['/', '/'] ∨ mark = ['#'] := by
    cases language <;> decide
  exact hall mark hmem

theorem Language.hasMarks_lexicon (language : Language) : language.grammar.lexicon.hasMarks = true := by
  cases language <;> decide

theorem Language.isSpaceless_lexicon (language : Language) : language.grammar.lexicon.isSpaceless = true := by
  cases language <;> decide

/-- A line with a comment, told apart at the last character of the mark. -/
theorem exists_shown_of_mark {mark : Text} (hmark : mark = ['/', '/'] ∨ mark = ['#']) (front : Text) :
    ∃ shown c, (c = '/' ∨ c = '#') ∧ ∀ comment, front ++ mark ++ comment = shown ++ c :: comment := by
  rcases hmark with rfl | rfl
  · exact ⟨front ++ ['/'], '/', .inl rfl, fun comment => by simp⟩
  · exact ⟨front, '#', .inr rfl, fun comment => by simp⟩

variable {c : Char}

theorem isBlank_mark (hc : c = '/' ∨ c = '#') : isBlank c = false := by
  rcases hc with rfl | rfl <;> rfl

theorem carriesHead_append_cons (hc : c = '/' ∨ c = '#') (front comment : Text) :
    carriesHead (front ++ c :: comment) = endsInHeadMark comment := by
  have hblank := isBlank_mark hc
  have hends (mark : Text) (hmem : mark ∈ headMarks) :
      Text.endsWith mark (Text.trim (front ++ c :: comment)) = Text.endsWith mark (Text.trimEnd comment) := by
    have hmark : c ∉ mark := by
      revert mark
      rcases hc with rfl | rfl <;> decide
    rw [Text.trim, Text.trimStart_append_cons hblank, Text.trimEnd_append_cons hblank, Text.endsWith_append_cons hmark]
  have hwhere : (Text.trim (front ++ c :: comment) == "where".toList) = false := by
    rw [Text.trim, Text.trimStart_append_cons hblank, Text.trimEnd_append_cons hblank, beq_eq_false_iff_ne]
    intro heq
    have hmem : c ∈ "where".toList := heq ▸ List.mem_append_right _ List.mem_cons_self
    revert hmem
    rcases hc with rfl | rfl <;> decide
  rw [carriesHead, hwhere]
  simp only [endsInHeadMark, headMarks, List.any_cons, List.any_nil, Bool.or_false, Bool.or_assoc]
  rw [hends _ (by decide), hends _ (by decide), hends _ (by decide)]

theorem continuesExpression_append_cons (hc : c = '/' ∨ c = '#') (front comment : Text) :
    continuesExpression (front ++ c :: comment) = continuesExpression comment := by
  have hblank := isBlank_mark hc
  have hoperators : ∀ operator ∈ trailingOperators, c ∉ operator := by rcases hc with rfl | rfl <;> decide
  rw [continuesExpression, continuesExpression, Text.trimEnd_append_cons hblank]
  exact any_congr_of_mem fun operator hmem => Text.endsWith_append_cons (hoperators operator hmem) _ _

theorem startsContinuation_append_cons (hc : c = '/' ∨ c = '#') (shown rest rest' : Text) :
    startsContinuation (shown ++ c :: rest) = startsContinuation (shown ++ c :: rest') := by
  have hmarks : ∀ mark ∈ continuations, c ∉ mark := by rcases hc with rfl | rfl <;> decide
  refine any_congr_of_mem fun mark hmem => ?_
  rw [Text.strip?_append_cons (hmarks mark hmem), Text.strip?_append_cons (hmarks mark hmem)]
  cases Text.strip? mark shown with
  | none => rfl
  | some tail => cases tail <;> rfl

theorem indentWidth_append_cons (hc : c = '/' ∨ c = '#') (front rest rest' : Text) :
    indentWidth (front ++ c :: rest) = indentWidth (front ++ c :: rest') := by
  unfold indentWidth
  generalize 0 = width
  induction front generalizing width with
  | nil => rcases hc with rfl | rfl <;> rfl
  | cons d front ih =>
    by_cases hspace : d = ' '
    · subst hspace
      exact ih (width + 1)
    by_cases htab : d = '\t'
    · subst htab
      exact ih ((width / 8 + 1) * 8)
    · simp [indentFrom, hspace, htab]

end Ends

namespace BlockRules

variable {rules : BlockRules} {front mark old text : Text}

theorem isIdle_comment (hmarks : ∀ mark ∈ rules.lexicon.lineComments, mark = ['/', '/'] ∨ mark = ['#'])
    (hmem : mark ∈ rules.lexicon.lineComments) :
    rules.isIdle (front ++ mark ++ ' ' :: text) = rules.isIdle (front ++ mark ++ old) := by
  have htrim (comment : Text) :
      Text.trimStart (front ++ mark ++ comment) = Text.trimStart front ++ mark ++ comment := by
    rcases hmarks mark hmem with rfl | rfl
    · simpa using Text.trimStart_append_cons (c := '/') rfl front ('/' :: comment)
    · simpa using Text.trimStart_append_cons (c := '#') rfl front comment
  have hsome (comment : Text) : (Text.trimStart front ++ mark ++ comment).isEmpty = false := by
    rcases hmarks mark hmem with rfl | rfl <;> simp
  simp only [isIdle, htrim, hsome, Bool.false_or]
  by_cases hblank : Text.trimStart front = []
  · have hidle (comment : Text) : rules.lexicon.lineComments.any
        (fun other => Text.startsWith other (Text.trimStart front ++ mark ++ comment)) = true :=
      List.any_eq_true.2 ⟨mark, hmem, Text.startsWith_iff.2 ⟨comment, by rw [hblank, List.nil_append]⟩⟩
    rw [hidle, hidle]
  · -- some text in front and one character of the mark leave no part of a mark to the comment
    refine any_congr_of_mem fun other hother => Text.startsWith_swap ?_ fun _ => ?_
    · rcases hmarks other hother with rfl | rfl <;> decide
    · have hpos := List.length_pos_iff.2 hblank
      rw [List.length_append]
      rcases hmarks other hother with rfl | rfl <;> rcases hmarks mark hmem with rfl | rfl <;> simp; omega

/-- A line with a comment looks like the same line with another comment if the ends of the comments are alike. -/
theorem looksAlike_comment (hmarks : ∀ mark ∈ rules.lexicon.lineComments, mark = ['/', '/'] ∨ mark = ['#'])
    (hmem : mark ∈ rules.lexicon.lineComments) (hends : EndAlike old (' ' :: text)) :
    rules.LooksAlike (front ++ mark ++ old) (front ++ mark ++ ' ' :: text) := by
  have hidle : rules.isIdle (front ++ mark ++ ' ' :: text) = rules.isIdle (front ++ mark ++ old) :=
    isIdle_comment hmarks hmem
  obtain ⟨shown, c, hc, hline⟩ := exists_shown_of_mark (hmarks mark hmem) front
  have hblank := isBlank_mark hc
  rw [hline, hline] at hidle ⊢
  refine ⟨?_, fun opener => ?_, ?_, ?_, hidle, indentWidth_append_cons hc shown _ _⟩
  · rw [carriesHead_append_cons hc, carriesHead_append_cons hc, hends.endsInHeadMark_eq]
  · rw [Text.trimStart_append_cons hblank, Text.trimStart_append_cons hblank]
    rw [Bool.eq_iff_iff, Text.startsWith_iff, Text.startsWith_iff]
    cases Text.trimStart shown <;> simp [List.cons_prefix_cons]
  · rw [Text.trimStart_append_cons hblank, Text.trimStart_append_cons hblank]
    exact startsContinuation_append_cons hc _ _ _
  · rw [continuesExpression_append_cons hc, continuesExpression_append_cons hc, hends.continuesExpression_eq]

/-- For a reader who starts in code on line `start`, line `k` holds the text `front` and then a comment with the text
`old` behind its mark. -/
structure CommentOn (rules : BlockRules) (lines : List Text) (start k : Nat) (front mark old : Text) : Prop where
  line_eq : lines[k]? = some (front ++ mark ++ old)
  commentAt : rules.lexicon.CommentAt (rules.lexicon.stateFrom lines start k) front mark old

/-- No literal or comment is open where the head of an indented declaration ends before line `k`. -/
def HeadInCode (rules : BlockRules) (lines : List Text) (start last k : Nat) : Prop :=
  rules.style = .indent → ∀ line, rules.HeadEndsOn lines start (min last (lines.length - 1)) line → line < k →
    rules.lexicon.stateFrom lines start (line + 1) = .code

variable {lines : List Text} {start last k : Nat}

theorem windowOf_set (hstart : start ≤ k) (line : Text) :
    windowOf (lines.set k line) start last = (windowOf lines start last).set (k - start) line := by
  rw [windowOf, windowOf, List.drop_set, if_neg (by omega), List.take_set]

/-- After the first lines of a window the reader is where it is among all lines. -/
theorem foldl_take_windowOf (lexicon : Lexicon) (hstart : start ≤ k) (hlast : k ≤ last + 1) :
    ((windowOf lines start last).take (k - start)).foldl (fun state line => (lexicon.readLine state line).state) .code =
      lexicon.stateFrom lines start k := by
  rw [windowOf, List.take_take, Nat.min_eq_left (by omega)]
  rfl

theorem headEndsOn_of_indentHead (hlast : start ≤ last) (hlength : start < lines.length) {line : Nat}
    {later : Nat × List Text}
    (hhead : rules.indentHead start (start + (windowOf lines start last).length - 1) start 0 .code 0
      (windowOf lines start last) = (line, later)) :
    rules.HeadEndsOn lines start (min last (lines.length - 1)) line := by
  obtain ⟨line', hends, heq⟩ := indentHead_spec rules last (Nat.le_refl start) (by omega) hlength
    fun k hk hk' => by omega
  rw [Lexicon.examinedFrom_self, Lexicon.stateFrom_self, Lexicon.codeFrom_self, Text.tally_nil,
    ← last_windowOf hlength hlast, hhead] at heq
  obtain rfl : line = line' := congrArg Prod.fst heq
  exact hends

/-- The lines with another comment are read like the lines themselves, if no character literal reaches into it. -/
theorem CommentOn.readAlike {language : Language} (hlexicon : rules.lexicon = language.grammar.lexicon)
    (hcomment : rules.CommentOn lines start k front mark old) (hstart : start ≤ k) (hlast : k ≤ last)
    (hliterals : rules.lexicon.LiteralsEnd (rules.lexicon.stateFrom lines start k) front mark old (' ' :: text))
    (hends : EndAlike old (' ' :: text)) :
    rules.ReadAlike .code (windowOf lines start last)
      (windowOf (lines.set k (front ++ mark ++ ' ' :: text)) start last) := by
  have hmarks : ∀ mark ∈ rules.lexicon.lineComments, mark = ['/', '/'] ∨ mark = ['#'] := fun mark hmem =>
    language.lineComment_cases (hlexicon ▸ hmem)
  have hmem := hcomment.commentAt.mark_mem
  have hline : (windowOf lines start last)[k - start]? = some (front ++ mark ++ old) := by
    rw [windowOf, List.getElem?_take_of_lt (by omega), List.getElem?_drop, Nat.add_sub_cancel' hstart, hcomment.line_eq]
  have hsome : rules.lexicon.hasMarks = true := hlexicon ▸ language.hasMarks_lexicon
  rw [windowOf_set hstart]
  refine ReadAlike.set hline (looksAlike_comment hmarks hmem hends) ?_
  rw [foldl_take_windowOf rules.lexicon hstart (by omega)]
  have hmark : mark ≠ [] := by rcases hmarks mark hmem with rfl | rfl <;> simp
  exact hcomment.commentAt.readLine_eq hsome (hlexicon ▸ language.isSpaceless_lexicon)
    (Lexicon.possible_stateFrom hsome lines start k) hmark hliterals

/-- What follows the head of an indented declaration is read alike as well. -/
theorem CommentOn.readAlike_drop (hcomment : rules.CommentOn lines start k front mark old) (hstart : start ≤ k)
    (hlast : k ≤ last) (hcode : rules.HeadInCode lines start last k)
    (halike : rules.ReadAlike .code (windowOf lines start last)
      (windowOf (lines.set k (front ++ mark ++ ' ' :: text)) start last))
    (hstyle : rules.style = .indent) {line examined : Nat}
    (hhead : rules.indentHead start (start + (windowOf lines start last).length - 1) start 0 .code 0
      (windowOf lines start last) = (line, examined, (windowOf lines start last).drop (line + 1 - start))) :
    rules.ReadAlike .code ((windowOf lines start last).drop (line + 1 - start))
      ((windowOf (lines.set k (front ++ mark ++ ' ' :: text)) start last).drop (line + 1 - start)) := by
  have hlength : k < lines.length := (List.getElem?_eq_some_iff.1 hcomment.line_eq).1
  have hends := headEndsOn_of_indentHead (Nat.le_trans hstart hlast) (Nat.lt_of_le_of_lt hstart hlength) hhead
  have hline := hends.start_le
  rcases Nat.lt_or_ge line k with hlt | hge
  · have hrest := halike.drop (line + 1 - start)
    rwa [foldl_take_windowOf rules.lexicon (by omega) (by omega), hcode hstyle line hends hlt] at hrest
  · -- the comment belongs to the head, and what follows is the same text
    rw [windowOf_set hstart, List.drop_set, if_pos (by omega)]
    exact .refl rules .code _

end BlockRules

/-- The text `old` of a comment behind `mark` can give way to `new` wherever it stands, provided that no character
literal in front of it reaches into `new` and that the head of an indented declaration ends in code: the extents of
declarations and statements stay as they are. -/
def Language.Interchangeable (language : Language) (mark old new : Text) : Prop :=
  ∀ (rules : BlockRules) (lines : List Text) (start last k : Nat) (front : Text),
    rules.lexicon = language.grammar.lexicon → start ≤ k → k ≤ last →
    rules.CommentOn lines start k front mark old →
    rules.lexicon.LiteralsEnd (rules.lexicon.stateFrom lines start k) front mark old new →
    (rules.HeadInCode lines start last k →
      rules.blockExtent start (windowOf (lines.set k (front ++ mark ++ new)) start last) =
        rules.blockExtent start (windowOf lines start last)) ∧
      rules.statementExtent start (windowOf (lines.set k (front ++ mark ++ new)) start last) =
        rules.statementExtent start (windowOf lines start last)

theorem Language.interchangeable_of_endAlike (language : Language) {mark old text : Text}
    (hends : EndAlike old (' ' :: text)) : language.Interchangeable mark old (' ' :: text) := by
  intro rules lines start last k front hlexicon hstart hlast hcomment hliterals
  have halike := hcomment.readAlike hlexicon hstart hlast hliterals hends
  refine ⟨fun hcode => ?_, BlockRules.statementExtent_eq_of_alike halike start⟩
  refine BlockRules.blockExtent_eq_of_alike halike start fun hstyle line examined hhead => ?_
  exact hcomment.readAlike_drop hstart hlast hcode halike hstyle hhead

section Necessity

/-- A block with nothing inside. -/
def emptyBlock : List Text :=
  ["a\x7b".toList, "\x7d".toList]

/-- A comment and a block after it, which a head or a statement takes in if it goes on behind the comment. -/
def remarkedBlock (mark comment : Text) : List Text :=
  (mark ++ comment) :: emptyBlock

/-- The rules of a language for bodies in braces where lines end statements. -/
def Language.bracedRules (language : Language) : BlockRules :=
  ⟨language.grammar.lexicon, .braces '{' '}', .newline, {}⟩

namespace Language

variable {language : Language} {mark comment : Text}

theorem readLine_remark (hmem : mark ∈ language.grammar.lexicon.lineComments)
    (hcomment : language.grammar.lexicon.codeMove [] (mark ++ comment) = .endLine) :
    language.bracedRules.lexicon.readLine .code (mark ++ comment) = ⟨[], 1, .code, true⟩ := by
  have hsome : mark ++ comment ≠ [] := by rcases language.lineComment_cases hmem with rfl | rfl <;> simp
  exact Lexicon.readFrom_endLine language.hasMarks_lexicon hsome hcomment 0

theorem blockExtent_remarkedBlock (hmem : mark ∈ language.grammar.lexicon.lineComments)
    (hcomment : language.grammar.lexicon.codeMove [] (mark ++ comment) = .endLine) :
    language.bracedRules.blockExtent 0 (windowOf (remarkedBlock mark comment) 0 2) =
      if endsInHeadMark comment then ⟨1, 2, .matched⟩ else .single 0 := by
  obtain ⟨shown, c, hc, hline⟩ := exists_shown_of_mark (language.lineComment_cases hmem) []
  have hhead : headContinues '{' .code 0 ([] ++ mark ++ comment) emptyBlock = endsInHeadMark comment := by
    rw [headContinues_eq, hline, carriesHead_append_cons hc]
    cases endsInHeadMark comment <;> rfl
  have hrest : language.bracedRules.findOpener '{' '}' 0 2 1 1 .code 0 emptyBlock =
      ⟨1, 2, .matched⟩ := by cases language <;> decide
  have hstep : language.bracedRules.blockExtent 0 (windowOf (remarkedBlock mark comment) 0 2) =
      if !headContinues '{' .code 0 (mark ++ comment) emptyBlock then .single 0
      else language.bracedRules.findOpener '{' '}' 0 2 1 1 .code 0 emptyBlock := by
    show language.bracedRules.findOpener '{' '}' 0 2 0 0 .code 0 ((mark ++ comment) :: emptyBlock) = _
    rw [BlockRules.findOpener, readLine_remark hmem hcomment]
    rfl
  rw [List.nil_append] at hhead
  rw [hstep, hhead, hrest]
  cases endsInHeadMark comment <;> rfl

theorem statementExtent_remarkedBlock (hmem : mark ∈ language.grammar.lexicon.lineComments)
    (hcomment : language.grammar.lexicon.codeMove [] (mark ++ comment) = .endLine) :
    language.bracedRules.statementExtent 0 (windowOf (remarkedBlock mark comment) 0 2) =
      if continuesExpression comment then ⟨0, 2, .terminated⟩ else .single 0 := by
  obtain ⟨shown, c, hc, hline⟩ := exists_shown_of_mark (language.lineComment_cases hmem) []
  have hends : continuesExpression ([] ++ mark ++ comment) = continuesExpression comment := by
    rw [hline, continuesExpression_append_cons hc]
  have hrest : language.bracedRules.statementBody 0 2 1 1 .code 0 emptyBlock =
      ⟨0, 2, .terminated⟩ := by cases language <;> decide
  have hstep : language.bracedRules.statementExtent 0 (windowOf (remarkedBlock mark comment) 0 2) =
      if !continuesExpression (mark ++ comment) then .single 0
      else language.bracedRules.statementBody 0 2 1 1 .code 0 emptyBlock := by
    show language.bracedRules.statementBody 0 2 0 0 .code 0 ((mark ++ comment) :: emptyBlock) = _
    rw [BlockRules.statementBody, readLine_remark hmem hcomment]
    rfl
  rw [List.nil_append] at hends
  rw [hstep, hends, hrest]
  cases continuesExpression comment <;> rfl

/-- Nothing stands in front of the comment. -/
theorem literalsEnd_remark (hmem : mark ∈ language.grammar.lexicon.lineComments) (old new : Text) :
    language.grammar.lexicon.LiteralsEnd .code [] mark old new := by
  intro before tail hstands length hliteral
  have hline := congrArg List.length hstands.line_eq
  simp only [List.nil_append, List.length_append, List.length_reverse] at hline
  obtain rfl : tail = [] := List.eq_nil_of_length_eq_zero (by omega)
  rcases language.lineComment_cases hmem with rfl | rfl <;> cases hliteral

theorem endAlike_of_interchangeable {old text : Text} (hmem : mark ∈ language.grammar.lexicon.lineComments)
    (hcomment : language.grammar.lexicon.codeMove [] (mark ++ old) = .endLine)
    (hswap : language.Interchangeable mark old (' ' :: text)) : EndAlike old (' ' :: text) := by
  have hnew : language.grammar.lexicon.codeMove [] (mark ++ ' ' :: text) = .endLine :=
    Lexicon.codeMove_endLine_swap language.isSpaceless_lexicon hmem hcomment
  have hon : language.bracedRules.CommentOn (remarkedBlock mark old) 0 0 [] mark old :=
    ⟨rfl, hmem, .start, hcomment⟩
  obtain ⟨hblock, hstatement⟩ := hswap language.bracedRules (remarkedBlock mark old) 0 2 0 [] rfl (Nat.le_refl 0)
    (Nat.zero_le 2) hon (literalsEnd_remark hmem old _)
  have hset : (remarkedBlock mark old).set 0 ([] ++ mark ++ ' ' :: text) = remarkedBlock mark (' ' :: text) := rfl
  have hhead : language.bracedRules.HeadInCode (remarkedBlock mark old) 0 2 0 := fun hstyle => nomatch hstyle
  have hblock := hblock hhead
  rw [hset, blockExtent_remarkedBlock hmem hnew, blockExtent_remarkedBlock hmem hcomment] at hblock
  rw [hset, statementExtent_remarkedBlock hmem hnew, statementExtent_remarkedBlock hmem hcomment] at hstatement
  constructor
  · cases hold : endsInHeadMark old <;> cases hnext : endsInHeadMark (' ' :: text) <;>
      simp [hold, hnext, Extent.single] at hblock ⊢
  · cases hold : continuesExpression old <;> cases hnext : continuesExpression (' ' :: text) <;>
      simp [hold, hnext, Extent.single] at hstatement ⊢

end Language

end Necessity

/-- A comment that begins with a space can take the place of another comment, wherever they stand, exactly if their
ends are alike. The text of a comment is no code, and yet the search for the last line looks at it: a head goes on
after a comma and an expression after an operator, also where these end a comment. -/
theorem Language.interchangeable_iff_endAlike (language : Language) (mark old text : Text)
    (hmem : mark ∈ language.grammar.lexicon.lineComments)
    (hcomment : language.grammar.lexicon.codeMove [] (mark ++ old) = .endLine) :
    language.Interchangeable mark old (' ' :: text) ↔ EndAlike old (' ' :: text) :=
  ⟨endAlike_of_interchangeable hmem hcomment, language.interchangeable_of_endAlike⟩

theorem Language.interchangeable_iff_endAlike_quoted :
    EndAlike " a, b".toList " \"\x7b".toList ∧
      Language.javascript.Interchangeable "//".toList " a, b".toList " \"\x7b".toList ∧
      ¬ Language.javascript.Interchangeable "//".toList " a, b".toList " a,".toList := by
  have hends : EndAlike " a, b".toList " \"\x7b".toList := ⟨by decide, by decide⟩
  have hmoves : ¬ EndAlike " a, b".toList " a,".toList := fun halike => absurd halike.endsInHeadMark_eq (by decide)
  exact ⟨hends, (interchangeable_iff_endAlike .javascript _ _ _ (by decide) (by decide)).2 hends,
    mt (interchangeable_iff_endAlike .javascript _ _ _ (by decide) (by decide)).1 hmoves⟩

/-- A head that goes on if the comment behind it ends in a comma, and a statement if it ends in an operator. -/
def remarkedHead : List Text :=
  ["f // a".toList, "g \x7b".toList, "\x7d".toList]

/-- An escape that a quote in the comment makes a character literal, so that the comment is none. -/
def remarkedEscape : List Text :=
  ["'\\a // b".toList, "\x7d".toList]

/-- A head that ends inside a literal, so that the body is read as if it began in code. -/
def remarkedLiteral : List Text :=
  ["def f(\"\"\"".toList, " \"\"\"".toList, "# a".toList, "x".toList]

theorem comment_moves_extents :
    ((Language.javascript.grammar.blockRules {}).CommentOn remarkedHead 0 0 "f ".toList "//".toList " a".toList ∧
      (Language.javascript.grammar.blockRules {}).blockExtent 0 (windowOf remarkedHead 0 2) = .single 0 ∧
      (Language.javascript.grammar.blockRules {}).blockExtent 0
        (windowOf (remarkedHead.set 0 "f // a,".toList) 0 2) = ⟨1, 2, .matched⟩ ∧
      (Language.javascript.grammar.blockRules {}).statementExtent 0 (windowOf remarkedHead 0 2) = .single 0 ∧
      (Language.javascript.grammar.blockRules {}).statementExtent 0
        (windowOf (remarkedHead.set 0 "f // a =".toList) 0 2) = ⟨0, 2, .terminated⟩) ∧
    ((Language.rust.grammar.blockRules {}).CommentOn remarkedEscape 0 0 "'\\a ".toList "//".toList " b".toList ∧
      (Language.rust.grammar.blockRules {}).blockExtent 0 (windowOf remarkedEscape 0 1) = .single 0 ∧
      (Language.rust.grammar.blockRules {}).blockExtent 0
        (windowOf (remarkedEscape.set 0 "'\\a // ' \x7b".toList) 0 1) = ⟨0, 1, .matched⟩) ∧
    (Language.python.grammar.blockRules { openerLookahead := 0 }).CommentOn remarkedLiteral 0 2 [] "#".toList
        " a".toList ∧
      (Language.python.grammar.blockRules { openerLookahead := 0 }).blockExtent 0 (windowOf remarkedLiteral 0 3) =
        ⟨0, 3, .matched⟩ ∧
      (Language.python.grammar.blockRules { openerLookahead := 0 }).blockExtent 0
        (windowOf (remarkedLiteral.set 2 "# \"\"\"".toList) 0 3) = ⟨0, 2, .matched⟩ := by
  refine ⟨⟨⟨by decide, by decide, ?_, by decide⟩, by decide, by decide, by decide, by decide⟩,
    ⟨⟨by decide, by decide, ?_, by decide⟩, by decide, by decide⟩,
    ⟨by decide, by decide, .start, by decide⟩, by decide, by decide⟩
  · exact .code (.code .start (by decide)) (by decide)
  · exact .code (.code (.code (.code .start (by decide)) (by decide)) (by decide)) (by decide)

end Outline
