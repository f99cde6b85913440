import Mathlib.Data.List.TakeWhile
import Outline.Grammar.All
import Outline.Proofs.Lexing.Stream

namespace Outline

theorem Text.byteSize_reverse (t : Text) : byteSize t.reverse = byteSize t := by
  induction t with
  | nil => rfl
  | cons c t ih => simp [ih, Nat.add_comm]

namespace StringRule

/-- The texts that end a literal of the rule. -/
inductive Closes : StringRule → Text → Prop where
  | quoted {opener closer : Text} {escapes multiline : Bool} : Closes (.quoted opener closer escapes multiline) closer
  | fence {openers : List Text} {minHashes : Nat} {triple : Bool} {fence : Text} (hfence : ∀ c ∈ fence, c = '#') :
      Closes (.fenced openers minHashes triple) ('"' :: fence)
  | tripleFence {openers : List Text} {minHashes : Nat} {triple : Bool} {fence : Text}
      (hfence : ∀ c ∈ fence, c = '#') : Closes (.fenced openers minHashes triple) (['"', '"', '"'] ++ fence)
  | tag {tag : Text} (htag : ∀ c ∈ tag, isBlank c = false) : Closes .tagged (')' :: tag ++ ['"'])

/-- Whether the marks of the rule are not empty. A fence and a tag bring their own marks. -/
def hasMarks : StringRule → Bool
  | .quoted opener closer _ _ => !opener.isEmpty && !closer.isEmpty
  | _ => true

variable {rule : StringRule} {before rest : Text} {length : Nat} {next : LexState}

/-- An opening leads into a literal that ends as the rule says. -/
theorem closes_of_openFence? {openers : List Text} {minHashes : Nat} {triple : Bool} {opener : Text}
    (hopen : openFence? before rest minHashes triple opener = some (length, next)) :
    0 < length ∧ ∃ close escapes multiline, next = .literal close escapes multiline ∧
      (fenced openers minHashes triple).Closes close := by
  have hfence (after : Text) : ∀ c ∈ after.takeWhile (· == '#'), c = '#' := by
    intro c hmem
    simpa using List.mem_takeWhile_imp hmem
  unfold openFence? at hopen
  split at hopen
  · cases hopen
  · next after _ =>
    split at hopen
    · cases hopen
    · simp only at hopen
      split at hopen
      · cases hopen
      · split at hopen
        · cases hopen
          exact ⟨by omega, _, _, _, rfl, .tripleFence (hfence after)⟩
        · split at hopen
          · cases hopen
            exact ⟨by omega, _, _, _, rfl, .fence (hfence after)⟩
          · cases hopen

theorem closes_of_openTag? (hopen : openTag? before rest = some (length, next)) :
    0 < length ∧ ∃ close escapes multiline, next = .literal close escapes multiline ∧ tagged.Closes close := by
  unfold openTag? at hopen
  split at hopen
  · cases hopen
  · split at hopen
    · cases hopen
    · split at hopen
      · cases hopen
      · split at hopen
        · cases hopen
        · next tag _ _ hplain =>
          cases hopen
          simp only [Bool.or_eq_true, not_or, List.any_eq_true, not_exists, not_and] at hplain
          exact ⟨by omega, _, _, _, rfl, .tag fun c hmem => Bool.eq_false_iff.2 (hplain.2 c hmem).1.1⟩

theorem closes_of_open? (hopen : rule.open? before rest = some (length, next)) :
    (rule.hasMarks = true → 0 < length) ∧
      ∃ close escapes multiline, next = .literal close escapes multiline ∧ rule.Closes close := by
  cases rule with
  | quoted opener closer escapes multiline =>
    simp only [open?, Option.ite_none_right_eq_some, Option.some.injEq, Prod.mk.injEq] at hopen
    obtain ⟨_, rfl, rfl⟩ := hopen
    refine ⟨fun hmarks => ?_, _, _, _, rfl, .quoted⟩
    simp only [hasMarks, Bool.and_eq_true, Bool.not_eq_true', List.isEmpty_eq_false_iff] at hmarks
    exact List.length_pos_iff.2 hmarks.1
  | fenced openers minHashes triple =>
    obtain ⟨opener, _, hfence⟩ := List.exists_of_findSome?_eq_some hopen
    obtain ⟨hpos, hliteral⟩ := closes_of_openFence? hfence
    exact ⟨fun _ => hpos, hliteral⟩
  | tagged =>
    obtain ⟨hpos, hliteral⟩ := closes_of_openTag? hopen
    exact ⟨fun _ => hpos, hliteral⟩

theorem Closes.ne_nil {close : Text} (hcloses : rule.Closes close) (hmarks : rule.hasMarks = true) : close ≠ [] := by
  cases hcloses with
  | quoted =>
    simp only [hasMarks, Bool.and_eq_true, Bool.not_eq_true', List.isEmpty_eq_false_iff] at hmarks
    exact hmarks.2
  | fence | tripleFence | tag => simp

end StringRule

namespace Lexicon

/-- Whether the marks of comments with two marks and of literals are not empty. -/
def hasMarks (lexicon : Lexicon) : Bool :=
  lexicon.blockComment.all (fun marks => !marks.1.isEmpty && !marks.2.isEmpty) &&
    lexicon.strings.all StringRule.hasMarks

/-- A state in which a reader can be between two characters. -/
def Possible (lexicon : Lexicon) : LexState → Prop
  | .code => True
  | .comment depth =>
    lexicon.blockComment.isSome = true ∧ 0 < depth ∧ (lexicon.nestedComments = false → depth = 1)
  | .literal close _ _ => ∃ rule ∈ lexicon.strings, rule.Closes close

/-- A state in which a reader can be between two lines. -/
def Rests (lexicon : Lexicon) : LexState → Prop
  | .code => True
  | .comment depth =>
    lexicon.blockComment.isSome = true ∧ 0 < depth ∧ (lexicon.nestedComments = false → depth = 1)
  | .literal close _ multiline => multiline = true ∧ close ≠ []

/-- The states that a reader arrives at by reading lines, and by being set back to code. -/
inductive Reachable (lexicon : Lexicon) : LexState → Prop where
  | reset : Reachable lexicon .code
  | read {state : LexState} (hstate : Reachable lexicon state) (line : Text) :
      Reachable lexicon (lexicon.readLine state line).state

variable {lexicon : Lexicon} {state next : LexState} {before rest : Text} {length : Nat}

section Move

theorem possible_code : lexicon.Possible .code := trivial

theorem hasMarks_of_mem {rule : StringRule} (hmarks : lexicon.hasMarks = true) (hmem : rule ∈ lexicon.strings) :
    rule.hasMarks = true := by
  rw [hasMarks, Bool.and_eq_true] at hmarks
  exact List.all_eq_true.1 hmarks.2 rule hmem

theorem hasMarks_of_blockComment {opener closer : Text} (hmarks : lexicon.hasMarks = true)
    (hpair : lexicon.blockComment = some (opener, closer)) : opener ≠ [] ∧ closer ≠ [] := by
  rw [hasMarks, Bool.and_eq_true, hpair, Option.all_some] at hmarks
  simpa using hmarks.1

theorem token_of_literalMove {close : Text} {escapes multiline : Bool}
    (hstate : lexicon.Possible (.literal close escapes multiline))
    (hmove : literalMove close escapes multiline rest = .token length next) :
    lexicon.Possible next ∧ (lexicon.hasMarks = true → 0 < length) := by
  unfold literalMove at hmove
  split at hmove
  · cases hmove
    exact ⟨hstate, fun _ => by decide⟩
  · split at hmove
    · cases hmove
      obtain ⟨rule, hmem, hcloses⟩ := hstate
      exact ⟨trivial, fun hmarks => List.length_pos_iff.2 (hcloses.ne_nil (hasMarks_of_mem hmarks hmem))⟩
    · cases hmove
      exact ⟨hstate, fun _ => by decide⟩

theorem token_of_commentMove {depth : Nat} (hstate : lexicon.Possible (.comment depth))
    (hmove : lexicon.commentMove depth rest = .token length next) :
    lexicon.Possible next ∧ (lexicon.hasMarks = true → 0 < length) := by
  obtain ⟨hsome, hdepth, hflat⟩ := hstate
  unfold commentMove at hmove
  split at hmove
  · next hnone => simp [hnone] at hsome
  · next opener closer hpair =>
    split at hmove
    · -- a closing mark takes one level off, and the last one leads back to code
      cases hmove
      refine ⟨?_, fun hmarks => List.length_pos_iff.2 (hasMarks_of_blockComment hmarks hpair).2⟩
      split
      · trivial
      · next hdeep => exact ⟨hsome, by omega, fun h => by have := hflat h; omega⟩
    · split at hmove
      · next hnests =>
        cases hmove
        rw [Bool.and_eq_true] at hnests
        exact ⟨⟨hsome, by omega, fun h => by rw [h] at hnests; cases hnests.1⟩,
          fun hmarks => List.length_pos_iff.2 (hasMarks_of_blockComment hmarks hpair).1⟩
      · cases hmove
        exact ⟨⟨hsome, hdepth, hflat⟩, fun _ => by decide⟩

theorem pos_of_charLiteral? (hchar : lexicon.charLiteral? rest = some length) : 0 < length := by
  unfold charLiteral? at hchar
  split at hchar
  · split at hchar
    · unfold charLiteralLength? at hchar
      split at hchar
      · cases hchar
      · obtain ⟨index, _, rfl⟩ := Option.map_eq_some_iff.1 hchar
        omega
      · cases hchar
      · cases hchar
        decide
      · cases hchar
    · cases hchar
  · cases hchar

/-- What begins with a token in code: a comment with two marks, a literal, or a character literal. -/
theorem begins_of_codeMove (hmove : lexicon.codeMove before rest = .token length next) :
    (∃ opener closer, lexicon.blockComment = some (opener, closer) ∧ length = opener.length ∧ next = .comment 1) ∨
      (∃ rule ∈ lexicon.strings, rule.open? before rest = some (length, next)) ∨
      lexicon.charLiteral? rest = some length ∧ next = .code := by
  unfold codeMove at hmove
  split at hmove
  · next hopener =>
    cases hmove
    unfold blockCommentOpener? at hopener
    split at hopener
    · next opener closer hpair =>
      split at hopener
      · cases hopener
        exact .inl ⟨opener, closer, hpair, rfl, rfl⟩
      · cases hopener
    · cases hopener
  · split at hmove
    · cases hmove
    · split at hmove
      · next hopens =>
        cases hmove
        exact .inr (.inl (List.exists_of_findSome?_eq_some hopens))
      · split at hmove
        · next hchar =>
          cases hmove
          exact .inr (.inr ⟨hchar, rfl⟩)
        · cases hmove

theorem token_of_codeMove (hmove : lexicon.codeMove before rest = .token length next) :
    lexicon.Possible next ∧ (lexicon.hasMarks = true → 0 < length) := by
  obtain ⟨opener, closer, hpair, rfl, rfl⟩ | ⟨rule, hmem, hopen⟩ | ⟨hchar, rfl⟩ := begins_of_codeMove hmove
  · refine ⟨⟨by rw [hpair, Option.isSome_some], Nat.one_pos, fun _ => rfl⟩, fun hmarks => ?_⟩
    exact List.length_pos_iff.2 (hasMarks_of_blockComment hmarks hpair).1
  · obtain ⟨hpos, close, escapes, multiline, rfl, hcloses⟩ := StringRule.closes_of_open? hopen
    exact ⟨⟨rule, hmem, hcloses⟩, fun hmarks => hpos (hasMarks_of_mem hmarks hmem)⟩
  · exact ⟨trivial, fun _ => pos_of_charLiteral? hchar⟩

/-- A token leads from a state in which a reader can be to another, and without empty marks it takes characters. -/
theorem token_of_move (hstate : lexicon.Possible state)
    (hmove : lexicon.move state before rest = .token length next) :
    lexicon.Possible next ∧ (lexicon.hasMarks = true → 0 < length) := by
  cases state with
  | code => exact token_of_codeMove hmove
  | comment depth => exact token_of_commentMove hstate hmove
  | literal close escapes multiline => exact token_of_literalMove hstate hmove

theorem Possible.rests_atLineEnd (hstate : lexicon.Possible state) (hmarks : lexicon.hasMarks = true) :
    lexicon.Possible state.atLineEnd ∧ lexicon.Rests state.atLineEnd := by
  cases state with
  | code | comment depth => exact ⟨hstate, hstate⟩
  | literal close escapes multiline =>
    cases multiline with
    | false => exact ⟨trivial, trivial⟩
    | true =>
      obtain ⟨rule, hmem, hcloses⟩ := hstate
      exact ⟨⟨rule, hmem, hcloses⟩, rfl, hcloses.ne_nil (hasMarks_of_mem hmarks hmem)⟩

/-- Without empty marks the first move takes characters, and patience is never called upon. -/
theorem settledMove?_eq (hmarks : lexicon.hasMarks = true) (hstate : lexicon.Possible state) (patience : Nat) :
    lexicon.settledMove? before rest patience state = some (1, lexicon.move state before rest) :=
  settledMove?_of_settled (fun _ hmove => absurd ((token_of_move hstate hmove).2 hmarks) (Nat.lt_irrefl 0)) patience

/-- Wherever a reader can stand in a line, it is in a state in which a reader can be. -/
theorem Stands.possible {first : LexState} {line : Text} (hstands : lexicon.Stands first line before rest state)
    (hfirst : lexicon.Possible first) : lexicon.Possible state := by
  induction hstands with
  | start => exact hfirst
  | code => trivial
  | token _ hmove ih => exact (token_of_move ih hmove).1

end Move

section Reading

/-- States in which a reader settles at a character after at most `pace` moves, if it settles at all, and in one of
these states again. -/
structure Paced (lexicon : Lexicon) (pace : Nat) (states : LexState → Prop) : Prop where
  code : states .code
  settles : ∀ {state : LexState} {before rest : Text} {settled : Nat × Move}, states state →
    lexicon.settledMove? before rest state.patience state = some settled →
      settled.1 ≤ pace ∧ ∀ length next, settled.2 = .token length next → states next

theorem paced_possible (hmarks : lexicon.hasMarks = true) : lexicon.Paced 1 lexicon.Possible where
  code := possible_code
  settles hstate hsettled := by
    rw [settledMove?_eq hmarks hstate] at hsettled
    obtain rfl := Option.some.inj hsettled
    exact ⟨Nat.le_refl 1, fun _ _ hmove => (token_of_move hstate hmove).1⟩

section Paces

variable {pace : Nat} {states : LexState → Prop}

/-- A line is read in at most `pace` moves for each of its characters. -/
theorem Paced.examined_readFrom_le (hpaced : lexicon.Paced pace states) (hstate : states state)
    (skip offset : Nat) (before rest : Text) :
    (lexicon.readFrom skip offset state before rest).examined ≤ pace * rest.length := by
  induction rest generalizing skip offset state before with
  | nil => simp [readFrom]
  | cons c rest ih =>
    rw [List.length_cons, Nat.mul_succ]
    cases skip with
    | succ skip =>
      rw [readFrom]
      exact Nat.le_add_right_of_le (ih hstate skip _ _)
    | zero =>
      rw [readFrom]
      split
      · exact Nat.zero_le _
      · next steps hmade =>
        exact Nat.le_add_left_of_le (hpaced.settles hstate hmade).1
      · next steps hmade =>
        have hlater := ih hpaced.code 0 (offset + c.utf8Size) (c :: before)
        have hsteps : steps ≤ pace := (hpaced.settles hstate hmade).1
        simp only
        omega
      · next steps length next hmade =>
        obtain ⟨hsteps, hnext⟩ := hpaced.settles hstate hmade
        have hlater := ih (hnext length next rfl) (length - 1) (offset + c.utf8Size) (c :: before)
        simp only at hsteps ⊢
        omega

/-- The next line begins as a line ends for a reader in one of the states. -/
theorem Paced.exists_atLineEnd_readFrom (hpaced : lexicon.Paced pace states) (hstate : states state)
    (skip offset : Nat) (before rest : Text) :
    ∃ final, states final ∧ (lexicon.readFrom skip offset state before rest).state = final.atLineEnd := by
  induction rest generalizing skip offset state before with
  | nil => exact ⟨state, hstate, by simp [readFrom]⟩
  | cons c rest ih =>
    cases skip with
    | succ skip =>
      rw [readFrom]
      exact ih hstate skip _ _
    | zero =>
      rw [readFrom]
      split
      · exact ⟨.code, hpaced.code, rfl⟩
      · exact ⟨.code, hpaced.code, rfl⟩
      · exact ih hpaced.code 0 _ _
      · next steps length next hmade => exact ih ((hpaced.settles hstate hmade).2 length next rfl) _ _ _

theorem Paced.state_readLine (hpaced : lexicon.Paced pace states) (hstate : states state) (line : Text) :
    states (lexicon.readLine state line).state := by
  obtain ⟨final, hfinal, hend⟩ := hpaced.exists_atLineEnd_readFrom hstate 0 0 [] line
  rw [readLine, hend]
  cases final with
  | code | comment depth => exact hfinal
  | literal close escapes multiline =>
    cases multiline with
    | false => exact hpaced.code
    | true => exact hfinal

end Paces

/-- What is delivered comes from `offset` on and in the order of the line. -/
theorem pairwise_readFrom (lexicon : Lexicon) (skip offset : Nat) (state : LexState) (before rest : Text) :
    (∀ delivered ∈ (lexicon.readFrom skip offset state before rest).code, offset ≤ delivered.1) ∧
      (lexicon.readFrom skip offset state before rest).code.Pairwise fun first second => first.1 < second.1 := by
  induction rest generalizing skip offset state before with
  | nil => simp [readFrom]
  | cons c rest ih =>
    have hsize := Char.utf8Size_pos c
    have hlater (skip : Nat) (state : LexState) : (∀ delivered ∈
        (lexicon.readFrom skip (offset + c.utf8Size) state (c :: before) rest).code, offset < delivered.1) := by
      intro delivered hmem
      have := (ih skip (offset + c.utf8Size) state (c :: before)).1 delivered hmem
      omega
    have hweak (skip : Nat) (state : LexState) : (∀ delivered ∈
        (lexicon.readFrom skip (offset + c.utf8Size) state (c :: before) rest).code, offset ≤ delivered.1) :=
      fun delivered hmem => Nat.le_of_lt (hlater skip state delivered hmem)
    cases skip with
    | succ skip =>
      rw [readFrom]
      exact ⟨hweak skip state, (ih skip _ state _).2⟩
    | zero =>
      rw [readFrom]
      split
      · simp
      · simp
      · refine ⟨fun delivered hmem => ?_, List.pairwise_cons.2 ⟨hlater 0 .code, (ih 0 _ .code _).2⟩⟩
        rcases List.mem_cons.1 hmem with rfl | hmem
        · exact Nat.le_refl _
        · exact hweak 0 .code delivered hmem
      · exact ⟨hweak _ _, (ih _ _ _ _).2⟩

theorem codeText_readFrom_sublist (lexicon : Lexicon) (skip offset : Nat) (state : LexState) (before rest : Text) :
    (lexicon.readFrom skip offset state before rest).codeText.Sublist rest := by
  induction rest generalizing skip offset state before with
  | nil => simp [readFrom, Reading.codeText]
  | cons c rest ih =>
    cases skip with
    | succ skip =>
      rw [readFrom]
      exact (ih skip _ state _).cons c
    | zero =>
      rw [readFrom]
      split
      · simp [Reading.codeText]
      · simp [Reading.codeText]
      · exact (ih 0 _ .code _).cons_cons c
      · exact (ih _ _ _ _).cons c

/-- Without empty marks a reader comes to the end of every line. -/
theorem finished_readFrom (hmarks : lexicon.hasMarks = true) (hstate : lexicon.Possible state) (skip offset : Nat)
    (before rest : Text) : (lexicon.readFrom skip offset state before rest).finished = true := by
  induction rest generalizing skip offset state before with
  | nil => simp [readFrom]
  | cons c rest ih =>
    cases skip with
    | succ skip =>
      rw [readFrom]
      exact ih hstate skip _ _
    | zero =>
      rw [readFrom, settledMove?_eq hmarks hstate]
      cases hmove : lexicon.move state before (c :: rest) with
      | endLine => rfl
      | code => exact ih possible_code 0 _ _
      | token length next => exact ih (token_of_move hstate hmove).1 _ _ _

theorem state_readLine (hmarks : lexicon.hasMarks = true) (hstate : lexicon.Possible state) (line : Text) :
    lexicon.Possible (lexicon.readLine state line).state ∧ lexicon.Rests (lexicon.readLine state line).state := by
  obtain ⟨final, hfinal, hend⟩ := (paced_possible hmarks).exists_atLineEnd_readFrom hstate 0 0 [] line
  rw [readLine, hend]
  exact hfinal.rests_atLineEnd hmarks

theorem Reachable.possible (hreach : lexicon.Reachable state) (hmarks : lexicon.hasMarks = true) :
    lexicon.Possible state := by
  induction hreach with
  | reset => trivial
  | read _ line ih => exact (state_readLine hmarks ih line).1

/-- What can be relied on of the reading of a line that began in the state `first`. -/
structure Faithful (lexicon : Lexicon) (first : LexState) (line : Text) (reading : Reading) : Prop where
  /-- Wherever the reader stands before a character, its next move takes characters. -/
  advances : ∀ before c rest state, lexicon.Stands first line before (c :: rest) state →
    ∀ next, lexicon.move state before (c :: rest) ≠ .token 0 next
  finished : reading.finished = true
  examined_le : reading.examined ≤ line.length
  increasing : reading.code.Pairwise fun first second => first.1 < second.1
  occurs : ∀ delivered ∈ reading.code, ∃ before after, line = before ++ delivered.2 :: after ∧
    Text.byteSize before = delivered.1
  sublist : reading.codeText.Sublist line
  rests : lexicon.Rests reading.state

/-- In every state that a reader arrives at, each line is read faithfully, as long as no mark is empty. Nothing else
is assumed of the language: marks may overlap, begin alike and hold white space, and lines may hold any characters. -/
theorem readLine_faithful (lexicon : Lexicon) (hmarks : lexicon.hasMarks = true) {first : LexState}
    (hreach : lexicon.Reachable first) (line : Text) :
    lexicon.Faithful first line (lexicon.readLine first line) where
  advances before c rest state hstands next hmove :=
    absurd ((token_of_move (hstands.possible (hreach.possible hmarks)) hmove).2 hmarks) (Nat.lt_irrefl 0)
  finished := finished_readFrom hmarks (hreach.possible hmarks) 0 0 [] line
  examined_le := by
    have hmoves := (paced_possible hmarks).examined_readFrom_le (hreach.possible hmarks) 0 0 [] line
    rwa [Nat.one_mul] at hmoves
  increasing := (lexicon.pairwise_readFrom 0 0 first [] line).2
  occurs delivered hmem := by
    obtain ⟨before, rest, hline, hsize, _⟩ := isCodeAt_of_mem_readLine hmem
    exact ⟨before.reverse, rest, hline, by rw [Text.byteSize_reverse, hsize]⟩
  sublist := lexicon.codeText_readFrom_sublist 0 0 first [] line
  rests := (state_readLine hmarks (hreach.possible hmarks) line).2

/-- A line that ends two comments and has a letter of two bytes and a quote of its own between literals. -/
def tangledLine : Text :=
  "*/ */ é = '\"' + r#\"\"\"# // \"".toList

theorem reachable_nestedComment : Grammar.rustLexicon.Reachable (.comment 2) := by
  have hstate : (Grammar.rustLexicon.readLine .code "/* \" /*".toList).state = .comment 2 := by decide
  exact hstate ▸ .read .reset _

theorem readLine_faithful_tangledLine :
    (Grammar.rustLexicon.readLine (.comment 2) tangledLine).code =
        [(5, ' '), (6, 'é'), (8, ' '), (9, '='), (10, ' '), (14, ' '), (15, '+'), (16, ' '), (23, ' ')] ∧
      Grammar.rustLexicon.Faithful (.comment 2) tangledLine (Grammar.rustLexicon.readLine (.comment 2) tangledLine) :=
  ⟨by decide, readLine_faithful Grammar.rustLexicon (by decide) reachable_nestedComment tangledLine⟩

end Reading

end Lexicon

end Outline
