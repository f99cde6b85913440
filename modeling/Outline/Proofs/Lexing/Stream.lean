import Mathlib.Algebra.BigOperators.Intervals
import Mathlib.Algebra.Order.BigOperators.Group.Finset
import Outline.Proofs.Lexing.Pass
import Outline.Proofs.Text.Lines

namespace Outline

section Windows

variable {lines : List Text} {first last : Nat}

/-- What holds of the lines from `first` on before line `last` and of that line holds before the next line. -/
theorem forall_lt_succ {holds : Nat → Prop} (hbefore : ∀ k, first ≤ k → k < last → holds k) (hlast : holds last) :
    ∀ k, first ≤ k → k < last + 1 → holds k := by
  intro k hk hk'
  rcases Nat.lt_succ_iff_lt_or_eq.1 hk' with hlt | rfl
  · exact hbefore k hk hlt
  · exact hlast

theorem getD_of_windowOf {line : Text} {rest : List Text} (hwindow : windowOf lines first last = line :: rest) :
    lines.getD first [] = line := by
  rw [List.getD_eq_getElem?_getD, getElem?_of_windowOf hwindow, Option.getD_some]

/-- A window that is not empty begins on one of the lines, and the rest of it is the window after that line. -/
theorem of_windowOf_eq_cons {line : Text} {rest : List Text}
    (hwindow : windowOf lines first last = line :: rest) :
    first ≤ last ∧ first < lines.length ∧ windowOf lines (first + 1) last = rest := by
  obtain ⟨hcount, hcount'⟩ := hwindow ▸ length_windowOf_le lines first last
  rw [List.length_cons] at hcount hcount'
  refine ⟨by omega, by omega, ?_⟩
  rw [← drop_windowOf, hwindow, List.drop_succ_cons, List.drop_zero]

/-- A window is empty only when it begins after its last line or after all lines. -/
theorem of_windowOf_eq_nil (hwindow : windowOf lines first last = []) : last < first ∨ lines.length ≤ first := by
  by_contra! hinside
  exact windowOf_ne_nil hinside.2 hinside.1 hwindow

theorem windowOf_eq_cons (hlast : first ≤ last) (hfirst : first < lines.length) :
    windowOf lines first last = lines.getD first [] :: windowOf lines (first + 1) last := by
  obtain ⟨line, rest, hwindow⟩ := List.exists_cons_of_ne_nil (windowOf_ne_nil hfirst hlast)
  rw [getD_of_windowOf hwindow, (of_windowOf_eq_cons hwindow).2.2, hwindow]

end Windows

namespace Lexicon

section Standing

/-- A reader who began `line` in the state `first` stands between `before` (back to front) and `rest`. One rule
is for each kind of move that leads on. -/
inductive Stands (lexicon : Lexicon) (first : LexState) (line : Text) : Text → Text → LexState → Prop where
  | start : Stands lexicon first line [] line first
  | code {before rest : Text} {c : Char} (hstands : Stands lexicon first line before (c :: rest) .code)
      (hmove : lexicon.codeMove before (c :: rest) = .code) : Stands lexicon first line (c :: before) rest .code
  | token {before rest : Text} {state next : LexState} {length : Nat}
      (hstands : Stands lexicon first line before rest state)
      (hmove : lexicon.move state before rest = .token length next) :
      Stands lexicon first line ((rest.take length).reverse ++ before) (rest.drop length) next

/-- Neither a comment nor a literal begins between `before` (back to front) and `rest`. -/
structure NothingBegins (lexicon : Lexicon) (before rest : Text) : Prop where
  blockComment : lexicon.blockCommentOpener? rest = none
  lineComment : lexicon.startsLineComment rest = false
  literal : ∀ rule ∈ lexicon.strings, rule.open? before rest = none
  charLiteral : lexicon.charLiteral? rest = none

/-- The character at a byte of a line is code: the reader stands before it in code, and neither a comment nor a
literal begins with it. -/
def IsCodeAt (lexicon : Lexicon) (first : LexState) (line : Text) (offset : Nat) (c : Char) : Prop :=
  ∃ before rest, line = before.reverse ++ c :: rest ∧ Text.byteSize before = offset ∧
    lexicon.Stands first line before (c :: rest) .code ∧ lexicon.NothingBegins before (c :: rest)

variable {lexicon : Lexicon} {first state : LexState} {line before rest : Text}

theorem nothingBegins_of_codeMove (hmove : lexicon.codeMove before rest = .code) :
    lexicon.NothingBegins before rest := by
  unfold codeMove at hmove
  split at hmove
  · cases hmove
  · next hblock =>
    split at hmove
    · cases hmove
    · next hline =>
      split at hmove
      · cases hmove
      · next hliteral =>
        split at hmove
        · cases hmove
        · next hchar =>
          exact ⟨hblock, Bool.eq_false_iff.2 hline, List.findSome?_eq_none_iff.1 hliteral, hchar⟩

theorem code_eq_of_move (hmove : lexicon.move state before rest = .code) :
    state = .code ∧ lexicon.codeMove before rest = .code := by
  cases state with
  | code => exact ⟨rfl, hmove⟩
  | comment depth =>
    simp only [move, commentMove] at hmove
    split at hmove
    · cases hmove
    · split at hmove
      · cases hmove
      · split at hmove <;> cases hmove
  | literal close escapes multiline =>
    simp only [move, literalMove] at hmove
    split at hmove
    · cases hmove
    · split at hmove <;> cases hmove

/-- Where a move leads a reader who stands between `before` (back to front) and `rest`. -/
def LeadsOn (lexicon : Lexicon) (first : LexState) (line before rest : Text) : Move → Prop
  | .endLine => True
  | .code => lexicon.Stands first line before rest .code ∧ lexicon.codeMove before rest = .code
  | .token length next =>
    0 < length ∧ lexicon.Stands first line ((rest.take length).reverse ++ before) (rest.drop length) next

theorem Stands.leadsOn (hstands : lexicon.Stands first line before rest state)
    (hsome : ∀ next, lexicon.move state before rest ≠ .token 0 next) :
    lexicon.LeadsOn first line before rest (lexicon.move state before rest) := by
  cases hmove : lexicon.move state before rest with
  | endLine => trivial
  | code =>
    obtain ⟨rfl, hcode⟩ := code_eq_of_move hmove
    exact ⟨hstands, hcode⟩
  | token length next =>
    refine ⟨Nat.pos_of_ne_zero ?_, hstands.token hmove⟩
    rintro rfl
    exact hsome next hmove

theorem settledMove?_of_settled (hsettled : ∀ next, lexicon.move state before rest ≠ .token 0 next) (patience : Nat) :
    lexicon.settledMove? before rest patience state = some (1, lexicon.move state before rest) := by
  rw [settledMove?]
  split
  · next next hempty => exact absurd hempty (hsettled next)
  · rfl

theorem settledMove?_of_empty (hempty : lexicon.move state before rest = .token 0 next) (patience : Nat) :
    lexicon.settledMove? before rest (patience + 1) state =
      (lexicon.settledMove? before rest patience next).map fun settled => (settled.1 + 1, settled.2) := by
  rw [settledMove?, hempty]
  rfl

theorem settledMove?_zero (hempty : lexicon.move state before rest = .token 0 next) :
    lexicon.settledMove? before rest 0 state = none := by
  rw [settledMove?, hempty]
  rfl

/-- A reader that settles does so at once, or behind an empty mark with less patience. -/
theorem settledMove?_cases {patience : Nat} {settled : Nat × Move}
    (hsettled : lexicon.settledMove? before rest patience state = some settled) :
    ((∀ next, lexicon.move state before rest ≠ .token 0 next) ∧ settled = (1, lexicon.move state before rest)) ∨
      ∃ fewer next later, patience = fewer + 1 ∧ lexicon.move state before rest = .token 0 next ∧
        lexicon.settledMove? before rest fewer next = some later ∧ settled = (later.1 + 1, later.2) := by
  by_cases hempty : ∃ next, lexicon.move state before rest = .token 0 next
  · obtain ⟨next, hempty⟩ := hempty
    cases patience with
    | zero =>
      rw [settledMove?_zero hempty] at hsettled
      cases hsettled
    | succ fewer =>
      rw [settledMove?_of_empty hempty, Option.map_eq_some_iff] at hsettled
      obtain ⟨later, hlater, heq⟩ := hsettled
      exact .inr ⟨fewer, next, later, rfl, hempty, hlater, heq.symm⟩
  · rw [not_exists] at hempty
    rw [settledMove?_of_settled hempty] at hsettled
    exact .inl ⟨hempty, (Option.some.inj hsettled).symm⟩

/-- What a reader does in the end at a character leads to where a reader can stand. -/
theorem Stands.leadsOn_settledMove {c : Char} {patience : Nat} {settled : Nat × Move}
    (hstands : lexicon.Stands first line before (c :: rest) state)
    (hsettled : lexicon.settledMove? before (c :: rest) patience state = some settled) :
    lexicon.LeadsOn first line before (c :: rest) settled.2 := by
  induction patience generalizing state settled with
  | zero =>
    obtain ⟨hstays, rfl⟩ | ⟨fewer, _, _, hfewer, _⟩ := settledMove?_cases hsettled
    · exact hstands.leadsOn hstays
    · exact absurd hfewer.symm (Nat.succ_ne_zero fewer)
  | succ patience ih =>
    obtain ⟨hstays, rfl⟩ | ⟨fewer, next, later, hfewer, hempty, hlater, rfl⟩ := settledMove?_cases hsettled
    · exact hstands.leadsOn hstays
    · obtain rfl := Nat.succ.inj hfewer
      have hleads := ih (by simpa using hstands.token hempty) hlater
      exact hleads

/-- The first `skip` characters are passed over. -/
theorem readFrom_skip (lexicon : Lexicon) (skip offset : Nat) (state : LexState) (before rest : Text) :
    lexicon.readFrom skip offset state before rest =
      lexicon.readFrom 0 (offset + Text.byteSize (rest.take skip)) state ((rest.take skip).reverse ++ before)
        (rest.drop skip) := by
  induction rest generalizing skip offset before with
  | nil => simp [readFrom]
  | cons c rest ih =>
    cases skip with
    | zero => simp
    | succ skip =>
      rw [readFrom, ih]
      simp [Nat.add_assoc]

theorem Stands.line_eq (hstands : lexicon.Stands first line before rest state) : line = before.reverse ++ rest := by
  induction hstands with
  | start => rfl
  | code _ _ ih => simpa using ih
  | token _ _ ih => simpa using ih

/-- Every character that is delivered is code. The first `skip` characters of `rest` belong to a token. -/
theorem isCodeAt_of_mem_readFrom {skip offset : Nat} (hline : line = before.reverse ++ rest)
    (hoffset : Text.byteSize before = offset)
    (hstands : lexicon.Stands first line ((rest.take skip).reverse ++ before) (rest.drop skip) state)
    {delivered : Nat × Char} (hmem : delivered ∈ (lexicon.readFrom skip offset state before rest).code) :
    lexicon.IsCodeAt first line delivered.1 delivered.2 := by
  induction rest generalizing skip offset state before with
  | nil => simp [readFrom] at hmem
  | cons c rest ih =>
    have hnext : line = (c :: before).reverse ++ rest := by simp [hline]
    have hsize : Text.byteSize (c :: before) = offset + c.utf8Size := by simp [hoffset, Nat.add_comm]
    cases skip with
    | succ skip =>
      rw [readFrom] at hmem
      exact ih hnext hsize (by simpa using hstands) hmem
    | zero =>
      simp only [List.take_zero, List.reverse_nil, List.nil_append, List.drop_zero] at hstands
      rw [readFrom] at hmem
      split at hmem
      · cases hmem
      · cases hmem
      · next steps hmade =>
        obtain ⟨hcode, hmove⟩ := hstands.leadsOn_settledMove hmade
        rcases List.mem_cons.1 hmem with rfl | hlater
        · exact ⟨before, rest, hline, hoffset, hcode, nothingBegins_of_codeMove hmove⟩
        · exact ih hnext hsize (by simpa using hcode.code hmove) hlater
      · next steps length next hmade =>
        obtain ⟨hpos, htoken⟩ := hstands.leadsOn_settledMove hmade
        obtain ⟨length, rfl⟩ := Nat.exists_eq_succ_of_ne_zero (Nat.ne_of_gt hpos)
        exact ih hnext hsize (by simpa using htoken) hmem

/-- A reader delivers no character of a comment, of a literal or of their marks. -/
theorem isCodeAt_of_mem_readLine {delivered : Nat × Char}
    (hmem : delivered ∈ (lexicon.readLine first line).code) :
    lexicon.IsCodeAt first line delivered.1 delivered.2 := by
  have hline : line = ([] : Text).reverse ++ line := rfl
  exact isCodeAt_of_mem_readFrom hline rfl .start hmem

end Standing

/-- The state in which line `index` begins for a reader who starts in code on line `first`. -/
def stateFrom (lexicon : Lexicon) (lines : List Text) (first index : Nat) : LexState :=
  lexicon.stateAt (lines.drop first) (index - first)

/-- What a reader who starts in code on line `first` reads of line `index`. -/
def readingFrom (lexicon : Lexicon) (lines : List Text) (first index : Nat) : Reading :=
  lexicon.readLine (lexicon.stateFrom lines first index) (lines.getD index [])

/-- The code that a reader who starts in code on line `first` delivers from line `low` on and before line `high`. -/
def codeFrom (lexicon : Lexicon) (lines : List Text) (first low high : Nat) : Text :=
  (List.range' low (high - low)).flatMap fun index => (lexicon.readingFrom lines first index).codeText

/-- How many characters a reader who starts in code on line `first` has examined when line `index` begins. -/
def examinedFrom (lexicon : Lexicon) (lines : List Text) (first index : Nat) : Nat :=
  ∑ i ∈ Finset.Ico first index, (lexicon.readingFrom lines first i).examined

section Stream

variable (lexicon : Lexicon) {lines : List Text} {first index last low high : Nat}

@[simp]
theorem stateFrom_self : lexicon.stateFrom lines first first = .code := by
  rw [stateFrom, Nat.sub_self, stateAt_zero]

theorem stateFrom_succ (hfirst : first ≤ index) (hindex : index < lines.length) :
    lexicon.stateFrom lines first (index + 1) = (lexicon.readingFrom lines first index).state := by
  have hdrop : (lines.drop first).drop (index - first) = lines.getD index [] :: lines.drop (index + 1) := by
    rw [List.drop_drop, Nat.add_sub_cancel' hfirst, List.drop_eq_getElem_cons hindex,
      List.getD_eq_getElem?_getD, List.getElem?_eq_getElem hindex, Option.getD_some]
  rw [stateFrom, Nat.succ_sub hfirst, stateAt_succ lexicon hdrop]
  rfl

/-- What is read of the first line of a window is what is read of that line among all lines. -/
theorem readLine_of_windowOf {line : Text} {rest : List Text}
    (hwindow : windowOf lines index last = line :: rest) :
    lexicon.readLine (lexicon.stateFrom lines first index) line = lexicon.readingFrom lines first index := by
  rw [readingFrom, getD_of_windowOf hwindow]

@[simp]
theorem codeFrom_self : lexicon.codeFrom lines first low low = [] := by
  simp [codeFrom]

theorem codeFrom_succ (hlow : low ≤ high) :
    lexicon.codeFrom lines first low (high + 1) =
      lexicon.codeFrom lines first low high ++ (lexicon.readingFrom lines first high).codeText := by
  rw [codeFrom, Nat.succ_sub hlow, List.range'_concat, List.flatMap_append]
  simp [codeFrom, Nat.add_sub_cancel' hlow]

theorem codeFrom_isPrefix {stop : Nat} (hlow : low ≤ high) (hhigh : high ≤ stop) :
    lexicon.codeFrom lines first low high <+: lexicon.codeFrom lines first low stop := by
  induction stop, hhigh using Nat.le_induction with
  | base => exact List.prefix_rfl
  | succ stop hhigh ih =>
    rw [codeFrom_succ lexicon (Nat.le_trans hlow hhigh)]
    exact ih.trans (List.prefix_append _ _)

@[simp]
theorem examinedFrom_self : lexicon.examinedFrom lines first first = 0 := by
  simp [examinedFrom]

theorem examinedFrom_succ (hfirst : first ≤ index) :
    lexicon.examinedFrom lines first (index + 1) =
      lexicon.examinedFrom lines first index + (lexicon.readingFrom lines first index).examined := by
  rw [examinedFrom, Finset.sum_Ico_succ_top hfirst, examinedFrom]

theorem examinedFrom_mono (hindex : index ≤ high) :
    lexicon.examinedFrom lines first index ≤ lexicon.examinedFrom lines first high :=
  Finset.sum_le_sum_of_subset (Finset.Ico_subset_Ico_right hindex)

end Stream

end Lexicon

end Outline
