import Outline.Proofs.Lexing.Faithful

namespace Outline.Lexicon

/-- A reader who stands between `before` (back to front) and `rest` makes moves for ever that take no characters:
it comes from each of its states to the next by an empty mark. -/
def Lingers (lexicon : Lexicon) (before rest : Text) (state : LexState) : Prop :=
  ∃ states : Nat → LexState, states 0 = state ∧
    ∀ n, lexicon.move (states n) before rest = .token 0 (states (n + 1))

variable {lexicon : Lexicon} {before rest : Text} {state next : LexState} {made : Move}

section Settling

/-- With more patience a reader does not settle otherwise. -/
theorem settledMove?_mono {patience more : Nat} {settled : Nat × Move} (hle : patience ≤ more)
    (hsettled : lexicon.settledMove? before rest patience state = some settled) :
    lexicon.settledMove? before rest more state = some settled := by
  induction more generalizing patience state settled with
  | zero =>
    obtain rfl := Nat.le_zero.1 hle
    exact hsettled
  | succ more ih =>
    obtain ⟨hstays, rfl⟩ | ⟨fewer, next, later, rfl, hempty, hlater, rfl⟩ := settledMove?_cases hsettled
    · exact settledMove?_of_settled hstays _
    · rw [settledMove?_of_empty hempty, ih (Nat.le_of_succ_le_succ hle) hlater, Option.map_some]

end Settling

section Lingering

theorem Lingers.exists_empty (hlingers : lexicon.Lingers before rest state) :
    ∃ next, lexicon.move state before rest = .token 0 next ∧ lexicon.Lingers before rest next := by
  obtain ⟨states, rfl, hmoves⟩ := hlingers
  exact ⟨states 1, hmoves 0, fun n => states (n + 1), rfl, fun n => hmoves (n + 1)⟩

theorem Lingers.cons (hempty : lexicon.move state before rest = .token 0 next)
    (hlingers : lexicon.Lingers before rest next) : lexicon.Lingers before rest state := by
  obtain ⟨states, rfl, hmoves⟩ := hlingers
  refine ⟨fun n => n.casesOn state states, rfl, fun n => ?_⟩
  cases n with
  | zero => exact hempty
  | succ n => exact hmoves n

/-- Whether a reader lingers is decided behind its next empty mark. -/
theorem lingers_iff_of_empty (hempty : lexicon.move state before rest = .token 0 next) :
    lexicon.Lingers before rest state ↔ lexicon.Lingers before rest next := by
  refine ⟨fun hlingers => ?_, .cons hempty⟩
  obtain ⟨other, hother, hlingers⟩ := hlingers.exists_empty
  rw [hempty] at hother
  cases hother
  exact hlingers

/-- No patience is enough for a reader who lingers. -/
theorem Lingers.settledMove?_eq_none (hlingers : lexicon.Lingers before rest state) (patience : Nat) :
    lexicon.settledMove? before rest patience state = none := by
  induction patience generalizing state with
  | zero =>
    obtain ⟨next, hempty, _⟩ := hlingers.exists_empty
    exact settledMove?_zero hempty
  | succ patience ih =>
    obtain ⟨next, hempty, hlater⟩ := hlingers.exists_empty
    rw [settledMove?_of_empty hempty, ih hlater, Option.map_none]

theorem lingers_of_cycle (hout : lexicon.move state before rest = .token 0 next)
    (hback : lexicon.move next before rest = .token 0 state) : lexicon.Lingers before rest state := by
  refine ⟨fun n => if n % 2 = 0 then state else next, rfl, fun n => ?_⟩
  rcases Nat.mod_two_eq_zero_or_one n with heven | hodd
  · have hnext : (n + 1) % 2 ≠ 0 := by omega
    simp only [heven, if_true, hnext, if_false]
    exact hout
  · have hnext : (n + 1) % 2 = 0 := by omega
    have hodd : n % 2 ≠ 0 := by omega
    simp only [hodd, if_false, hnext, if_true]
    exact hback

/-- An empty mark that leads deeper into a comment does so at every depth. -/
theorem lingers_of_deeper {depth : Nat} (hdeeper : lexicon.commentMove depth rest = .token 0 (.comment (depth + 1))) :
    lexicon.Lingers before rest (.comment depth) := by
  refine ⟨fun n => .comment (depth + n), rfl, fun n => ?_⟩
  simp only [move, commentMove] at hdeeper ⊢
  split at hdeeper
  · cases hdeeper
  · next opener closer hpair =>
    by_cases hcloser : Text.startsWith closer rest = true
    · rw [if_pos hcloser] at hdeeper
      injection hdeeper with _ hnext
      split at hnext
      · cases hnext
      · injection hnext with hnext
        omega
    · simp only [if_neg hcloser] at hdeeper ⊢
      split at hdeeper
      · next hnests =>
        injection hdeeper with hlength
        rw [if_pos hnests, hlength]
        rfl
      · cases hdeeper

theorem code_of_literalMove {close : Text} {escapes multiline : Bool}
    (hempty : literalMove close escapes multiline rest = .token 0 next) : next = .code := by
  unfold literalMove at hempty
  split at hempty
  · cases hempty
  · split at hempty
    · injection hempty with _ hnext
      exact hnext.symm
    · cases hempty

/-- An empty mark in a comment leads to code, one level up or one level deeper. -/
theorem cases_of_commentMove {depth : Nat} (hempty : lexicon.commentMove depth rest = .token 0 next) :
    next = .code ∨
      (1 < depth ∧ next = .comment (depth - 1) ∧ ∃ opener, lexicon.blockComment = some (opener, [])) ∨
      next = .comment (depth + 1) := by
  unfold commentMove at hempty
  split at hempty
  · injection hempty with _ hnext
    exact .inl hnext.symm
  · next opener closer hpair =>
    split at hempty
    · injection hempty with hlength hnext
      split at hnext
      · exact .inl hnext.symm
      · next hdeep =>
        obtain rfl := List.length_eq_zero_iff.1 hlength
        exact .inr (.inl ⟨Nat.not_le.1 hdeep, hnext.symm, opener, hpair⟩)
    · split at hempty
      · injection hempty with _ hnext
        exact .inr (.inr hnext.symm)
      · cases hempty

/-- Two empty marks in a row from code on lead back to code, or ever deeper into a comment. -/
theorem lingers_of_twice {later : LexState} (hfirst : lexicon.codeMove before rest = .token 0 next)
    (hsecond : lexicon.move next before rest = .token 0 later) : lexicon.Lingers before rest .code := by
  have hout : lexicon.move .code before rest = .token 0 next := hfirst
  obtain ⟨_, _, _, _, rfl⟩ | ⟨rule, _, hopen⟩ | ⟨hchar, _⟩ := begins_of_codeMove hfirst
  · obtain rfl | ⟨hdeep, -, -⟩ | rfl := cases_of_commentMove hsecond
    · exact lingers_of_cycle hout hsecond
    · exact absurd hdeep (Nat.lt_irrefl 1)
    · exact .cons hout (lingers_of_deeper hsecond)
  · obtain ⟨-, _, _, _, rfl, -⟩ := StringRule.closes_of_open? hopen
    obtain rfl := code_of_literalMove hsecond
    exact lingers_of_cycle hout hsecond
  · exact absurd (pos_of_charLiteral? hchar) (Nat.lt_irrefl 0)

theorem exists_empty_of_none {patience : Nat} (hnone : lexicon.settledMove? before rest patience state = none) :
    ∃ next, lexicon.move state before rest = .token 0 next ∧
      ∀ fewer, patience = fewer + 1 → lexicon.settledMove? before rest fewer next = none := by
  by_contra hsettled
  by_cases hempty : ∃ next, lexicon.move state before rest = .token 0 next
  · obtain ⟨next, hempty⟩ := hempty
    refine hsettled ⟨next, hempty, ?_⟩
    rintro fewer rfl
    rwa [settledMove?_of_empty hempty, Option.map_eq_none_iff] at hnone
  · rw [not_exists] at hempty
    rw [settledMove?_of_settled hempty] at hnone
    cases hnone

theorem lingers_code_of_none {patience : Nat} (hpatience : 0 < patience)
    (hnone : lexicon.settledMove? before rest patience .code = none) : lexicon.Lingers before rest .code := by
  obtain ⟨fewer, rfl⟩ := Nat.exists_eq_add_one_of_ne_zero (Nat.ne_of_gt hpatience)
  obtain ⟨next, hfirst, hlater⟩ := exists_empty_of_none hnone
  obtain ⟨later, hsecond, _⟩ := exists_empty_of_none (hlater fewer rfl)
  exact lingers_of_twice hfirst hsecond

theorem lingers_comment_of_none {depth patience : Nat} (hpatience : depth + 1 < patience)
    (hnone : lexicon.settledMove? before rest patience (.comment depth) = none) :
    lexicon.Lingers before rest (.comment depth) := by
  -- an empty closing mark takes one level off with each move
  induction depth using Nat.strong_induction_on generalizing patience with
  | _ depth ih =>
    obtain ⟨fewer, rfl⟩ := Nat.exists_eq_add_one_of_ne_zero (Nat.ne_of_gt (Nat.zero_lt_of_lt hpatience))
    obtain ⟨next, hempty, hlater⟩ := exists_empty_of_none hnone
    obtain rfl | ⟨hdeep, rfl, -⟩ | rfl := cases_of_commentMove hempty
    · exact .cons hempty (lingers_code_of_none (by omega) (hlater fewer rfl))
    · exact .cons hempty (ih (depth - 1) (by omega) (by omega) (hlater fewer rfl))
    · exact lingers_of_deeper hempty

/-- A reader loses its patience exactly where it would make moves for ever. Nothing is assumed of the marks, and the
state need not be one that a reader arrives at. -/
theorem settledMove?_eq_none_iff :
    lexicon.settledMove? before rest state.patience state = none ↔ lexicon.Lingers before rest state := by
  refine ⟨fun hnone => ?_, fun hlingers => hlingers.settledMove?_eq_none _⟩
  cases state with
  | code => exact lingers_code_of_none Nat.two_pos hnone
  | comment depth => exact lingers_comment_of_none (Nat.lt_succ_self _) hnone
  | literal close escapes multiline =>
    obtain ⟨next, hempty, hlater⟩ := exists_empty_of_none hnone
    obtain rfl := code_of_literalMove hempty
    exact .cons hempty (lingers_code_of_none Nat.one_pos (hlater 1 rfl))

/-- What a reader does in the end is what it does behind an empty mark. -/
theorem settledMove?_snd_of_empty (hempty : lexicon.move state before rest = .token 0 next) :
    (lexicon.settledMove? before rest state.patience state).map Prod.snd =
      (lexicon.settledMove? before rest next.patience next).map Prod.snd := by
  cases hnext : lexicon.settledMove? before rest next.patience next with
  | none =>
    have hlingers := settledMove?_eq_none_iff.1 hnext
    rw [(hlingers.cons hempty).settledMove?_eq_none]
  | some settled =>
    cases hstate : lexicon.settledMove? before rest state.patience state with
    | none =>
      have hlingers := (lingers_iff_of_empty hempty).1 (settledMove?_eq_none_iff.1 hstate)
      rw [hlingers.settledMove?_eq_none] at hnext
      cases hnext
    | some other =>
      -- with enough patience for both states the two moves are one
      have hmore := settledMove?_mono (Nat.le_add_right state.patience (next.patience + 1)) hstate
      rw [← Nat.add_assoc, settledMove?_of_empty hempty,
        settledMove?_mono (Nat.le_add_left next.patience state.patience) hnext] at hmore
      obtain rfl := Option.some.inj hmore
      rfl

end Lingering

section Pace

/-- A state in which a reader can be and which leads to code by one empty mark at most: no comment is deeper than one
level if its closing mark is empty, for all its levels would be closed by one such mark after the other. -/
structure Tame (lexicon : Lexicon) (state : LexState) : Prop where
  possible : lexicon.Possible state
  shallow : ∀ depth, state = .comment depth → 1 < depth → ∀ opener, lexicon.blockComment ≠ some (opener, [])

/-- In a comment a token that leads deeper than one level is an opening mark, or a closing mark that is not empty. -/
theorem shallow_of_commentMove {depth depth' length : Nat}
    (hshallow : 1 < depth → ∀ opener, lexicon.blockComment ≠ some (opener, []))
    (hmove : lexicon.commentMove depth rest = .token length (.comment depth')) :
    ∀ opener, lexicon.blockComment ≠ some (opener, []) := by
  unfold commentMove at hmove
  split at hmove
  · cases hmove
  · next opener closer hpair =>
    split at hmove
    · injection hmove with _ hnext
      split at hnext
      · cases hnext
      · injection hnext with hdepth
        exact hshallow (by omega)
    · next hcloser =>
      intro other hother
      obtain ⟨-, rfl⟩ := Prod.mk.inj (Option.some.inj (hpair.symm.trans hother))
      exact hcloser rfl

theorem Tame.move {length : Nat} (hstate : lexicon.Tame state)
    (hmove : lexicon.move state before rest = .token length next) : lexicon.Tame next where
  possible := (token_of_move hstate.possible hmove).1
  shallow depth' hnext hdeep := by
    subst hnext
    cases state with
    | code =>
      obtain ⟨_, _, _, _, hone⟩ | ⟨rule, _, hopen⟩ | ⟨-, hcode⟩ := begins_of_codeMove hmove
      · injection hone with hone
        omega
      · obtain ⟨-, _, _, _, hliteral, -⟩ := StringRule.closes_of_open? hopen
        cases hliteral
      · cases hcode
    | comment depth => exact shallow_of_commentMove (hstate.shallow depth rfl) hmove
    | literal close escapes multiline =>
      simp only [Lexicon.move, literalMove] at hmove
      split at hmove
      · cases hmove
      · split at hmove <;> cases hmove

/-- A reader in code that settles makes one empty move before at most. -/
theorem steps_code_le {patience : Nat} {settled : Nat × Move}
    (hsettled : lexicon.settledMove? before rest patience .code = some settled) : settled.1 ≤ 2 := by
  obtain ⟨-, rfl⟩ | ⟨fewer, next, later, rfl, hempty, hlater, rfl⟩ := settledMove?_cases hsettled
  · exact Nat.le_succ 1
  · have hstays : ∀ other, lexicon.move next before rest ≠ .token 0 other := fun other hother => by
      rw [(lingers_of_twice hempty hother).settledMove?_eq_none] at hsettled
      cases hsettled
    rw [settledMove?_of_settled hstays] at hlater
    cases hlater
    exact Nat.le_refl 2

theorem steps_le {patience : Nat} {settled : Nat × Move} (hstate : lexicon.Tame state)
    (hsettled : lexicon.settledMove? before rest patience state = some settled) : settled.1 ≤ 3 := by
  obtain ⟨-, rfl⟩ | ⟨fewer, next, later, rfl, hempty, hlater, rfl⟩ := settledMove?_cases hsettled
  · exact Nat.le_add_left 1 2
  cases state with
  | code => exact Nat.le_succ_of_le (steps_code_le hsettled)
  | comment depth =>
    obtain rfl | ⟨hdeep, -, opener, hpair⟩ | rfl := cases_of_commentMove hempty
    · exact Nat.succ_le_succ (steps_code_le hlater)
    · exact absurd hpair (hstate.shallow depth rfl hdeep opener)
    · rw [(lingers_of_deeper hempty).settledMove?_eq_none] at hsettled
      cases hsettled
  | literal close escapes multiline =>
    obtain rfl := code_of_literalMove hempty
    exact Nat.succ_le_succ (steps_code_le hlater)

theorem Tame.settles {patience : Nat} {settled : Nat × Move} (hstate : lexicon.Tame state)
    (hsettled : lexicon.settledMove? before rest patience state = some settled) {length : Nat}
    (hmade : settled.2 = .token length next) : lexicon.Tame next := by
  induction patience generalizing state settled with
  | zero =>
    obtain ⟨-, rfl⟩ | ⟨fewer, _, _, hfewer, _⟩ := settledMove?_cases hsettled
    · exact hstate.move hmade
    · exact absurd hfewer.symm (Nat.succ_ne_zero fewer)
  | succ patience ih =>
    obtain ⟨-, rfl⟩ | ⟨fewer, _, later, hfewer, hempty, hlater, rfl⟩ := settledMove?_cases hsettled
    · exact hstate.move hmade
    · obtain rfl := Nat.succ.inj hfewer
      exact ih (hstate.move hempty) hlater hmade

/-- With whatever marks, a reader who came from code settles at a character after three moves at most or never: the
first may close a literal, the second open one. -/
theorem paced_tame (lexicon : Lexicon) : lexicon.Paced 3 lexicon.Tame where
  code := ⟨possible_code, fun _ hcode => LexState.noConfusion hcode⟩
  settles hstate hsettled := ⟨steps_le hstate hsettled, fun _ _ hmade => hstate.settles hsettled hmade⟩

theorem Reachable.tame (hreach : lexicon.Reachable state) : lexicon.Tame state := by
  induction hreach with
  | reset => exact lexicon.paced_tame.code
  | read _ line ih => exact lexicon.paced_tame.state_readLine ih line

end Pace

section Stalling

/-- A reader who begins the line in the state `first` comes to a character at which it stays for ever. -/
def Stalls (lexicon : Lexicon) (first : LexState) (line : Text) : Prop :=
  ∃ before c rest state, lexicon.Stands first line before (c :: rest) state ∧
    lexicon.Lingers before (c :: rest) state

variable {first state' : LexState} {line : Text} {c : Char}

/-- Only what a reader does in the end at a character matters to its reading, the count of its moves apart. -/
theorem readFrom_congr
    (heq : (lexicon.settledMove? before (c :: rest) state.patience state).map Prod.snd =
      (lexicon.settledMove? before (c :: rest) state'.patience state').map Prod.snd) (offset : Nat) :
    (lexicon.readFrom 0 offset state before (c :: rest)).code =
        (lexicon.readFrom 0 offset state' before (c :: rest)).code ∧
      (lexicon.readFrom 0 offset state before (c :: rest)).state =
        (lexicon.readFrom 0 offset state' before (c :: rest)).state ∧
      (lexicon.readFrom 0 offset state before (c :: rest)).finished =
        (lexicon.readFrom 0 offset state' before (c :: rest)).finished := by
  rw [readFrom, readFrom]
  cases hmade : lexicon.settledMove? before (c :: rest) state.patience state with
  | none =>
    rw [hmade, Option.map_none, eq_comm, Option.map_eq_none_iff] at heq
    rw [heq]
    exact ⟨rfl, rfl, rfl⟩
  | some settled =>
    rw [hmade, Option.map_some, eq_comm, Option.map_eq_some_iff] at heq
    obtain ⟨⟨steps', _⟩, hmade', rfl⟩ := heq
    rw [hmade']
    obtain ⟨steps, made⟩ := settled
    cases made <;> exact ⟨rfl, rfl, rfl⟩

/-- Wherever a reader can stand in a line, it comes to the end of the line from there if it does from the start. -/
theorem Stands.finished_eq (hstands : lexicon.Stands first line before rest state) :
    (lexicon.readLine first line).finished =
      (lexicon.readFrom 0 (Text.byteSize before) state before rest).finished := by
  induction hstands with
  | start => rfl
  | @code before rest c hstands hmove ih =>
    have hcode : lexicon.move .code before (c :: rest) = .code := hmove
    have hsize : Text.byteSize (c :: before) = Text.byteSize before + c.utf8Size := Nat.add_comm _ _
    rw [ih, readFrom, settledMove?_of_settled (by simp [hcode]), hcode, hsize]
  | @token before rest state next length hstands hmove ih =>
    rw [ih]
    cases rest with
    | nil => simp [readFrom]
    | cons c rest =>
      cases length with
      | zero => exact (readFrom_congr (settledMove?_snd_of_empty hmove) _).2.2
      | succ length =>
        have hsize : Text.byteSize (((c :: rest).take (length + 1)).reverse ++ before) =
            Text.byteSize before + c.utf8Size + Text.byteSize (rest.take length) := by
          rw [Text.byteSize_append, Text.byteSize_reverse, List.take_succ_cons, Text.byteSize_cons]
          omega
        rw [readFrom, settledMove?_of_settled (by simp [hmove]), hmove, hsize]
        simp only [Nat.succ_sub_one]
        rw [readFrom_skip]
        simp

theorem stalls_of_readFrom {skip offset : Nat}
    (hstands : lexicon.Stands first line ((rest.take skip).reverse ++ before) (rest.drop skip) state)
    (hunfinished : (lexicon.readFrom skip offset state before rest).finished = false) : lexicon.Stalls first line := by
  induction rest generalizing skip offset state before with
  | nil => simp [readFrom] at hunfinished
  | cons c rest ih =>
    cases skip with
    | succ skip =>
      rw [readFrom] at hunfinished
      exact ih (by simpa using hstands) hunfinished
    | zero =>
      simp only [List.take_zero, List.reverse_nil, List.nil_append, List.drop_zero] at hstands
      rw [readFrom] at hunfinished
      split at hunfinished
      · next hnone => exact ⟨before, c, rest, state, hstands, settledMove?_eq_none_iff.1 hnone⟩
      · cases hunfinished
      · next steps hmade =>
        obtain ⟨hcode, hmove⟩ := hstands.leadsOn_settledMove hmade
        exact ih (by simpa using hcode.code hmove) hunfinished
      · next steps length next hmade =>
        obtain ⟨hpos, htoken⟩ := hstands.leadsOn_settledMove hmade
        obtain ⟨length, rfl⟩ := Nat.exists_eq_succ_of_ne_zero (Nat.ne_of_gt hpos)
        exact ih (by simpa using htoken) hunfinished

/-- A reading is not finished exactly if the reader comes to a character at which it stays for ever. -/
theorem finished_readLine_eq_false_iff :
    (lexicon.readLine first line).finished = false ↔ lexicon.Stalls first line := by
  constructor
  · intro hunfinished
    have hline : lexicon.Stands first line ((line.take 0).reverse ++ []) (line.drop 0) first := by simpa using .start
    exact stalls_of_readFrom hline hunfinished
  · rintro ⟨before, c, rest, state, hstands, hlingers⟩
    rw [hstands.finished_eq, readFrom, hlingers.settledMove?_eq_none]

end Stalling

end Outline.Lexicon
