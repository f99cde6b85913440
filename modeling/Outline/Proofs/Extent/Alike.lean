import Outline.Proofs.Lexing.Pass
import Outline.Proofs.Text.Lines

namespace Outline

/-- Whether the head of a declaration goes on after a line because of what stands at the end of the line. -/
def carriesHead (line : Text) : Bool :=
  let current := Text.trim line
  Text.endsWith [','] current || Text.endsWith ['-', '>'] current || Text.endsWith [':'] current ||
    current == "where".toList

theorem headContinues_eq (opener : Char) (state : LexState) (parens : Int) (line : Text) (following : List Text) :
    headContinues opener state parens line following =
      if !state.inCode || parens > 0 then true
      else if carriesHead line then true
      else
        match following with
        | [] => false
        | next :: _ => Text.startsWith [opener] (Text.trimStart next) || startsContinuation (Text.trimStart next) := rfl

namespace BlockRules

/-- No test of the text of a line tells the two lines apart. -/
structure LooksAlike (rules : BlockRules) (line other : Text) : Prop where
  carriesHead_eq : carriesHead other = carriesHead line
  startsWith_eq : ∀ opener, Text.startsWith [opener] (Text.trimStart other) =
    Text.startsWith [opener] (Text.trimStart line)
  startsContinuation_eq : startsContinuation (Text.trimStart other) = startsContinuation (Text.trimStart line)
  continuesExpression_eq : continuesExpression other = continuesExpression line
  isIdle_eq : rules.isIdle other = rules.isIdle line
  indentWidth_eq : indentWidth other = indentWidth line

/-- Two windows of lines that look alike and that a reader who begins in the given state reads alike. -/
inductive ReadAlike (rules : BlockRules) : LexState → List Text → List Text → Prop where
  | nil (state : LexState) : ReadAlike rules state [] []
  | cons {state : LexState} {line other : Text} {window window' : List Text} (hlooks : rules.LooksAlike line other)
      (hread : rules.lexicon.readLine state other = rules.lexicon.readLine state line)
      (hrest : ReadAlike rules (rules.lexicon.readLine state line).state window window') :
      ReadAlike rules state (line :: window) (other :: window')

variable {rules : BlockRules} {state : LexState} {window window' : List Text}

theorem LooksAlike.refl (rules : BlockRules) (line : Text) : rules.LooksAlike line line :=
  ⟨rfl, fun _ => rfl, rfl, rfl, rfl, rfl⟩

namespace ReadAlike

theorem refl (rules : BlockRules) (state : LexState) (window : List Text) : rules.ReadAlike state window window := by
  induction window generalizing state with
  | nil => exact .nil state
  | cons line window ih => exact .cons (.refl rules line) rfl (ih _)

theorem length_eq (halike : rules.ReadAlike state window window') : window'.length = window.length := by
  induction halike with
  | nil => rfl
  | cons _ _ _ ih => rw [List.length_cons, List.length_cons, ih]

/-- What follows the first lines is read alike from the state in which these leave the reader. -/
theorem drop (halike : rules.ReadAlike state window window') (count : Nat) :
    rules.ReadAlike ((window.take count).foldl (fun state line => (rules.lexicon.readLine state line).state) state)
      (window.drop count) (window'.drop count) := by
  induction halike generalizing count with
  | nil state => simpa using .nil state
  | cons hlooks hread hrest ih =>
    cases count with
    | zero => exact .cons hlooks hread hrest
    | succ count => exact ih count

/-- One line may be replaced by a line that looks like it and is read like it where it stands. -/
theorem set {index : Nat} {line other : Text} (hline : window[index]? = some line)
    (hlooks : rules.LooksAlike line other)
    (hread : rules.lexicon.readLine
        ((window.take index).foldl (fun state line => (rules.lexicon.readLine state line).state) state) other =
      rules.lexicon.readLine
        ((window.take index).foldl (fun state line => (rules.lexicon.readLine state line).state) state) line) :
    rules.ReadAlike state window (window.set index other) := by
  induction window generalizing state index with
  | nil => cases hline
  | cons first window ih =>
    cases index with
    | zero =>
      obtain rfl : first = line := Option.some.inj hline
      exact .cons hlooks hread (.refl rules _ window)
    | succ index => exact .cons (.refl rules first) rfl (ih hline hread)

end ReadAlike

theorem headContinues_eq_of_alike {line other : Text} (hlooks : rules.LooksAlike line other)
    (halike : rules.ReadAlike state window window') (opener : Char) (reached : LexState) (parens : Int) :
    headContinues opener reached parens other window' = headContinues opener reached parens line window := by
  rw [headContinues_eq, headContinues_eq, hlooks.carriesHead_eq]
  cases halike with
  | nil => rfl
  | cons hnext => simp only [hnext.startsWith_eq, hnext.startsContinuation_eq]

theorem countToClose_eq_of_alike (halike : rules.ReadAlike state window window') (opener closer : Char)
    (start headerEnd last index iterations : Nat) (depth : Int) :
    rules.countToClose opener closer start headerEnd last index iterations state depth window' =
      rules.countToClose opener closer start headerEnd last index iterations state depth window := by
  induction halike generalizing index iterations depth with
  | nil => rfl
  | cons _ hread _ ih => simp only [countToClose, hread, ih]

theorem findOpener_eq_of_alike (halike : rules.ReadAlike state window window') (opener closer : Char)
    (start last index iterations : Nat) (parens : Int) :
    rules.findOpener opener closer start last index iterations state parens window' =
      rules.findOpener opener closer start last index iterations state parens window := by
  induction halike generalizing index iterations parens with
  | nil => rfl
  | cons hlooks hread hrest ih =>
    simp only [findOpener, hread, ih, countToClose_eq_of_alike hrest, headContinues_eq_of_alike hlooks hrest]

theorem keywordBody_eq_of_alike (halike : rules.ReadAlike state window window')
    (start last index iterations depth brackets : Nat) (previous : Text) :
    rules.keywordBody start last index iterations state depth brackets previous window' =
      rules.keywordBody start last index iterations state depth brackets previous window := by
  induction halike generalizing index iterations depth brackets previous with
  | nil => rfl
  | cons _ hread _ ih => simp only [keywordBody, hread, ih]

theorem statementBody_eq_of_alike (halike : rules.ReadAlike state window window')
    (start last index iterations : Nat) (balance : Int) :
    rules.statementBody start last index iterations state balance window' =
      rules.statementBody start last index iterations state balance window := by
  induction halike generalizing index iterations balance with
  | nil => rfl
  | cons hlooks hread _ ih => simp only [statementBody, hread, hlooks.continuesExpression_eq, ih]

theorem indentBody_eq_of_alike (halike : rules.ReadAlike state window window')
    (start headerEnd last base index iterations reached : Nat) :
    rules.indentBody start headerEnd last base index iterations reached state window' =
      rules.indentBody start headerEnd last base index iterations reached state window := by
  induction halike generalizing index iterations reached with
  | nil => rfl
  | cons hlooks hread _ ih => simp only [indentBody, hread, hlooks.isIdle_eq, hlooks.indentWidth_eq, ih]

/-- The heads of two windows that are read alike end on the same line. -/
theorem indentHead_eq_of_alike (halike : rules.ReadAlike state window window') (start last index iterations : Nat)
    (brackets : Int) :
    ∃ line examined, index ≤ line ∧
      rules.indentHead start last index iterations state brackets window =
        (line, examined, window.drop (line + 1 - index)) ∧
      rules.indentHead start last index iterations state brackets window' =
        (line, examined, window'.drop (line + 1 - index)) := by
  induction halike generalizing index iterations brackets with
  | nil => exact ⟨index, iterations, Nat.le_refl _, by simp [indentHead], by simp [indentHead]⟩
  | @cons state line other window window' _ hread _ ih =>
    simp only [indentHead, hread]
    split
    · exact ⟨index, iterations + (rules.lexicon.readLine state line).examined, Nat.le_refl _, by simp, by simp⟩
    · obtain ⟨line, examined, hle, hhead, hhead'⟩ := ih (index + 1)
        (iterations + (rules.lexicon.readLine state line).examined)
        ((rules.lexicon.readLine state line).codeText.foldl bracketStep brackets)
      have hcount : line + 1 - index = line + 1 - (index + 1) + 1 := by omega
      exact ⟨line, examined, by omega, by rw [hhead, hcount, List.drop_succ_cons],
        by rw [hhead', hcount, List.drop_succ_cons]⟩

theorem statementExtent_eq_of_alike (halike : rules.ReadAlike .code window window') (start : Nat) :
    rules.statementExtent start window' = rules.statementExtent start window := by
  have hempty : window'.isEmpty = window.isEmpty := by
    cases halike <;> rfl
  simp only [statementExtent, hempty, halike.length_eq, statementBody_eq_of_alike halike]

/-- Windows that are read alike have the same extent. After the head of an indented declaration a reader begins in
code again, so that what follows the head has to be read alike from there. -/
theorem blockExtent_eq_of_alike (halike : rules.ReadAlike .code window window') (start : Nat)
    (hbody : rules.style = .indent → ∀ line examined,
      rules.indentHead start (start + window.length - 1) start 0 .code 0 window =
          (line, examined, window.drop (line + 1 - start)) →
        rules.ReadAlike .code (window.drop (line + 1 - start)) (window'.drop (line + 1 - start))) :
    rules.blockExtent start window' = rules.blockExtent start window := by
  have hempty : window'.isEmpty = window.isEmpty := by
    cases halike <;> rfl
  cases hstyle : rules.style with
  | braces opener closer =>
    simp only [blockExtent, hstyle, hempty, braceExtent, halike.length_eq, findOpener_eq_of_alike halike]
  | keyword => simp only [blockExtent, hstyle, hempty, keywordExtent, halike.length_eq, keywordBody_eq_of_alike halike]
  | indent =>
    have hbase : indentWidth (window'.headD []) = indentWidth (window.headD []) := by
      cases halike with
      | nil => rfl
      | cons hlooks => exact hlooks.indentWidth_eq
    obtain ⟨line, examined, _, hhead, hhead'⟩ :=
      indentHead_eq_of_alike halike start (start + window.length - 1) start 0 0
    simp only [blockExtent, hstyle, hempty, indentExtent, halike.length_eq, hbase, hhead, hhead',
      indentBody_eq_of_alike (hbody hstyle line examined hhead)]

end BlockRules

end Outline
