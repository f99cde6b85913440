import Outline.Proofs.Lexing.Comments
import Outline.Proofs.Lexing.Lingering

namespace Outline

namespace Lexicon

/-- What a reader in the given state delivers of the rest of its line, behind `before` (back to front), and the state
in which the next line begins, unless the reader stays for ever at some character. -/
def deliver? (lexicon : Lexicon) (state : LexState) (before rest : Text) : Option (List (Nat × Char) × LexState) :=
  let reading := lexicon.readFrom 0 (Text.byteSize before) state before rest
  if reading.finished then some (reading.code, reading.state) else none

/-- What a reader delivers of lines, one after the other, and the states in which the next lines begin, up to a line
whose end it does not come to. The first line is the rest of one that has been read up to behind `before`. -/
def passage (lexicon : Lexicon) : LexState → (before : Text) → List Text → List (List (Nat × Char) × LexState)
  | _, _, [] => []
  | state, before, rest :: more =>
    match lexicon.deliver? state before rest with
    | some line => line :: passage lexicon line.2 [] more
    | none => []

variable {lexicon : Lexicon} {state next : LexState} {before rest : Text} {length : Nat}

theorem deliver?_nil (lexicon : Lexicon) (state : LexState) (before : Text) :
    lexicon.deliver? state before [] = some ([], state.atLineEnd) := by
  simp [deliver?, readFrom]

theorem passage_cons {line : List (Nat × Char) × LexState} (hline : lexicon.deliver? state before rest = some line)
    (more : List Text) :
    lexicon.passage state before (rest :: more) = line :: lexicon.passage line.2 [] more := by
  rw [passage, hline]

/-- Two places from which the rest of the line is delivered alike are alike for the lines after it. -/
theorem passage_congr {state' : LexState} {before' rest' : Text}
    (heq : lexicon.deliver? state before rest = lexicon.deliver? state' before' rest') (more : List Text) :
    lexicon.passage state before (rest :: more) = lexicon.passage state' before' (rest' :: more) := by
  rw [passage, passage, heq]

theorem state_readLine_of_deliver? {line : Text} {reached : LexState}
    (hline : (lexicon.deliver? state [] line).map Prod.snd = some reached) :
    (lexicon.readLine state line).state = reached := by
  obtain ⟨delivered, hdelivered, rfl⟩ := Option.map_eq_some_iff.1 hline
  simp only [deliver?, Option.ite_none_right_eq_some] at hdelivered
  exact congrArg Prod.snd (Option.some.inj hdelivered.2)

section Moves

/-- A token takes a reader over its characters and delivers nothing. -/
theorem deliver?_token (hmove : lexicon.move state before rest = .token length next) (hpos : 0 < length)
    (hrest : rest ≠ []) :
    lexicon.deliver? state before rest =
      lexicon.deliver? next ((rest.take length).reverse ++ before) (rest.drop length) := by
  obtain ⟨c, rest, rfl⟩ := List.exists_cons_of_ne_nil hrest
  obtain ⟨length, rfl⟩ := Nat.exists_eq_succ_of_ne_zero (Nat.ne_of_gt hpos)
  have hsize : Text.byteSize (((c :: rest).take (length + 1)).reverse ++ before) =
      Text.byteSize before + c.utf8Size + Text.byteSize (rest.take length) := by
    rw [Text.byteSize_append, Text.byteSize_reverse, List.take_succ_cons, Text.byteSize_cons]
    omega
  rw [deliver?, deliver?, hsize, readFrom, settledMove?_of_settled (by simp [hmove]), hmove]
  simp only [Nat.succ_sub_one]
  rw [readFrom_skip]
  simp

/-- A character of code is delivered, and the line ends as it ends behind the character. -/
theorem deliver?_code {c : Char} (hmove : lexicon.codeMove before (c :: rest) = .code) :
    lexicon.deliver? .code before (c :: rest) =
      (lexicon.deliver? .code (c :: before) rest).map fun later =>
        ((Text.byteSize before, c) :: later.1, later.2) := by
  have hcode : lexicon.move .code before (c :: rest) = .code := hmove
  have hsize : Text.byteSize (c :: before) = Text.byteSize before + c.utf8Size := Nat.add_comm _ _
  rw [deliver?, deliver?, hsize, readFrom, settledMove?_of_settled (by simp [hcode]), hcode]
  dsimp only
  split <;> rfl

/-- An empty mark changes the state of a reader and leaves it where it stands. -/
theorem deliver?_empty (hmove : lexicon.move state before rest = .token 0 next) (hrest : rest ≠ []) :
    lexicon.deliver? state before rest = lexicon.deliver? next before rest := by
  obtain ⟨c, rest, rfl⟩ := List.exists_cons_of_ne_nil hrest
  obtain ⟨hcode, hstate, hfinished⟩ :=
    readFrom_congr (settledMove?_snd_of_empty hmove) (Text.byteSize before)
  rw [deliver?, deliver?]
  simp only [hcode, hstate, hfinished]

/-- A token takes a reader over its characters, if it has any. -/
theorem deliver?_mark {mark : Text} (hmove : lexicon.move state before (mark ++ rest) = .token mark.length next)
    (hinside : mark ++ rest ≠ []) :
    lexicon.deliver? state before (mark ++ rest) = lexicon.deliver? next (mark.reverse ++ before) rest := by
  by_cases hmark : mark = []
  · subst hmark
    exact deliver?_empty hmove hinside
  · rw [deliver?_token hmove (List.length_pos_iff.2 hmark) hinside, List.take_left, List.drop_left]

/-- Where a reader stays for ever, it delivers no line. -/
theorem Lingers.deliver?_eq_none (hlingers : lexicon.Lingers before rest state) (hrest : rest ≠ []) :
    lexicon.deliver? state before rest = none := by
  obtain ⟨c, rest, rfl⟩ := List.exists_cons_of_ne_nil hrest
  rw [deliver?, readFrom, hlingers.settledMove?_eq_none]
  rfl

end Moves

end Lexicon

end Outline
