import Outline.Proofs.Lexing.Passage

namespace Outline

namespace Comment

/-- What the text of a comment is split into. -/
inductive Piece where
  | opener
  | closer
  | other
deriving DecidableEq

/-- A text that goes on with `after` is split from the left into pieces that make up `passed`: a closing mark wherever
there is one, else, if comments nest, an opening mark, else a character. -/
inductive Splits (opener closer : Text) (nests : Bool) (after : Text) : Text → List Piece → Prop where
  | nil : Splits opener closer nests after [] []
  | closer {passed : Text} {pieces : List Piece} (hinside : closer ++ (passed ++ after) ≠ [])
      (hrest : Splits opener closer nests after passed pieces) :
      Splits opener closer nests after (closer ++ passed) (.closer :: pieces)
  | opener {passed : Text} {pieces : List Piece} (hnests : nests = true) (hinside : opener ++ (passed ++ after) ≠ [])
      (hcloser : ¬ closer <+: opener ++ (passed ++ after)) (hrest : Splits opener closer nests after passed pieces) :
      Splits opener closer nests after (opener ++ passed) (.opener :: pieces)
  | other {c : Char} {passed : Text} {pieces : List Piece} (hcloser : ¬ closer <+: c :: (passed ++ after))
      (hopener : nests = true → ¬ opener <+: c :: (passed ++ after))
      (hrest : Splits opener closer nests after passed pieces) :
      Splits opener closer nests after (c :: passed) (.other :: pieces)

/-- How deep a comment of the given depth is after the pieces. -/
def level (depth : Nat) (pieces : List Piece) : Int :=
  depth + pieces.count .opener - pieces.count .closer

/-- Before the last of the pieces a comment of the given depth has not come to its end. -/
def OpenBefore (depth : Nat) (pieces : List Piece) : Prop :=
  ∀ earlier, earlier <+: pieces → earlier ≠ pieces → 0 < level depth earlier

/-- A comment of the given depth gets through the pieces without coming to its end. -/
def StaysOpen (depth : Nat) (pieces : List Piece) : Prop :=
  ∀ earlier, earlier <+: pieces → 0 < level depth earlier

/-- The state of a reader at a depth. -/
def state : Nat → LexState
  | 0 => .code
  | depth + 1 => .comment (depth + 1)

variable {opener closer after passed : Text} {nests : Bool} {depth : Nat} {piece : Piece} {pieces more : List Piece}

section Levels

@[simp]
theorem level_nil (depth : Nat) : level depth [] = depth := by
  simp [level]

@[simp]
theorem level_other (depth : Nat) (pieces : List Piece) : level depth (.other :: pieces) = level depth pieces := by
  simp [level]

@[simp]
theorem level_opener (depth : Nat) (pieces : List Piece) :
    level depth (.opener :: pieces) = level (depth + 1) pieces := by
  simp only [level, List.count_cons_self, List.count_cons_of_ne (show Piece.opener ≠ .closer by decide)]
  omega

@[simp]
theorem level_closer (depth : Nat) (pieces : List Piece) :
    level (depth + 1) (.closer :: pieces) = level depth pieces := by
  simp only [level, List.count_cons_self, List.count_cons_of_ne (show Piece.closer ≠ .opener by decide)]
  omega

theorem level_append (hlevel : 0 ≤ level depth pieces) (more : List Piece) :
    level depth (pieces ++ more) = level (level depth pieces).toNat more := by
  have hcast : ((level depth pieces).toNat : Int) = level depth pieces := Int.toNat_of_nonneg hlevel
  have hrest : level (level depth pieces).toNat more =
      level depth pieces + more.count .opener - more.count .closer := by
    rw [level, hcast]
  rw [hrest, level, level, List.count_append, List.count_append]
  omega

instance (depth : Nat) (pieces : List Piece) : Decidable (OpenBefore depth pieces) :=
  decidable_of_iff (∀ earlier ∈ pieces.inits, earlier ≠ pieces → 0 < level depth earlier) (by simp [OpenBefore])

theorem openBefore_nil (depth : Nat) : OpenBefore depth [] := by
  intro earlier hearlier hne
  exact absurd (List.prefix_nil.1 hearlier) hne

/-- A piece in front of others that changes the depth from `depth` to `inner`. -/
theorem OpenBefore.cons {inner : Nat} (hopen : OpenBefore inner pieces) (hdepth : 0 < depth)
    (hlevel : ∀ earlier, level depth (piece :: earlier) = level inner earlier) :
    OpenBefore depth (piece :: pieces) := by
  intro earlier hearlier hne
  cases earlier with
  | nil =>
    rw [level_nil]
    omega
  | cons first earlier =>
    obtain ⟨rfl, hbegins⟩ := List.cons_prefix_cons.1 hearlier
    rw [hlevel]
    apply hopen earlier hbegins
    rintro rfl
    exact hne rfl

/-- A comment that has not come to its end before the last of several pieces has not come to it at the first. -/
theorem OpenBefore.tail {inner : Nat} (hopen : OpenBefore depth (piece :: pieces))
    (hlevel : ∀ earlier, level depth (piece :: earlier) = level inner earlier) :
    OpenBefore inner pieces ∧ (inner = 0 → pieces = []) := by
  constructor
  · intro earlier hearlier hne
    rw [← hlevel]
    apply hopen _ (List.cons_prefix_cons.2 ⟨rfl, hearlier⟩)
    simpa using hne
  · rintro rfl
    by_contra hsome
    have hpos := hopen [piece] (List.cons_prefix_cons.2 ⟨rfl, List.nil_prefix⟩) (by simpa using Ne.symm hsome)
    rw [hlevel, level_nil] at hpos
    omega

theorem StaysOpen.pos (hstays : StaysOpen depth pieces) : 0 < level depth pieces :=
  hstays pieces List.prefix_rfl

theorem OpenBefore.staysOpen (hopen : OpenBefore depth pieces) (hpos : 0 < level depth pieces) :
    StaysOpen depth pieces := by
  intro earlier hearlier
  by_cases hall : earlier = pieces
  · rwa [hall]
  · exact hopen earlier hearlier hall

/-- The pieces of two stretches are counted one after the other. -/
theorem StaysOpen.openBefore_append_iff (hstays : StaysOpen depth pieces) :
    OpenBefore depth (pieces ++ more) ↔ OpenBefore (level depth pieces).toNat more := by
  have hlevel := level_append (Int.le_of_lt hstays.pos)
  constructor
  · intro hopen earlier hearlier hne
    rw [← hlevel]
    apply hopen _ ((List.prefix_append_right_inj pieces).2 hearlier)
    simpa using hne
  · intro hmore earlier hearlier hne
    obtain hbegins | ⟨further, rfl⟩ := List.prefix_or_prefix_of_prefix hearlier (List.prefix_append _ _)
    · exact hstays earlier hbegins
    · rw [hlevel]
      apply hmore further ((List.prefix_append_right_inj pieces).1 hearlier)
      rintro rfl
      exact hne rfl

theorem OpenBefore.staysOpen_of_append (hopen : OpenBefore depth (pieces ++ more)) (hmore : more ≠ []) :
    StaysOpen depth pieces := by
  intro earlier hearlier
  apply hopen earlier (hearlier.trans (List.prefix_append _ _))
  rintro rfl
  have hlength := hearlier.length_le
  rw [List.length_append] at hlength
  exact hmore (List.length_eq_zero_iff.1 (by omega))

theorem staysOpen_append_iff :
    StaysOpen depth (pieces ++ more) ↔ StaysOpen depth pieces ∧ StaysOpen (level depth pieces).toNat more := by
  constructor
  · intro hstays
    have hfirst : StaysOpen depth pieces := fun earlier hearlier =>
      hstays earlier (hearlier.trans (List.prefix_append _ _))
    refine ⟨hfirst, fun earlier hearlier => ?_⟩
    rw [← level_append (Int.le_of_lt hfirst.pos)]
    exact hstays _ ((List.prefix_append_right_inj pieces).2 hearlier)
  · rintro ⟨hfirst, hmore⟩
    apply OpenBefore.staysOpen
    · exact hfirst.openBefore_append_iff.2 fun earlier hearlier _ => hmore earlier hearlier
    · rw [level_append (Int.le_of_lt hfirst.pos)]
      exact hmore.pos

end Levels

section Moves

variable {lexicon : Lexicon} {rest : Text}

/-- A closing mark takes one level off, and the last one leads to code. -/
theorem deliver?_closer (hpair : lexicon.blockComment = some (opener, closer)) (hinside : closer ++ rest ≠ [])
    (depth : Nat) (before : Text) :
    lexicon.deliver? (.comment (depth + 1)) before (closer ++ rest) =
      lexicon.deliver? (state depth) (closer.reverse ++ before) rest := by
  have hmove : lexicon.move (.comment (depth + 1)) before (closer ++ rest) = .token closer.length (state depth) := by
    have hstarts := Text.startsWith_iff.2 (List.prefix_append closer rest)
    simp only [Lexicon.move, Lexicon.commentMove, hpair, hstarts, if_true]
    cases depth <;> simp [state]
  exact Lexicon.deliver?_mark hmove hinside

theorem commentMove_opener (hpair : lexicon.blockComment = some (opener, closer))
    (hnests : lexicon.nestedComments = true) (hcloser : ¬ closer <+: opener ++ rest) (depth : Nat) :
    lexicon.commentMove depth (opener ++ rest) = .token opener.length (.comment (depth + 1)) := by
  have hstarts := Text.startsWith_iff.2 (List.prefix_append opener rest)
  simp only [Lexicon.commentMove, hpair, hnests, hstarts, Text.startsWith_iff, hcloser, if_false, Bool.and_self, if_true]

theorem deliver?_opener (hpair : lexicon.blockComment = some (opener, closer)) (hinside : opener ++ rest ≠ [])
    (hnests : lexicon.nestedComments = true) (hcloser : ¬ closer <+: opener ++ rest) (depth : Nat) (before : Text) :
    lexicon.deliver? (.comment depth) before (opener ++ rest) =
      lexicon.deliver? (.comment (depth + 1)) (opener.reverse ++ before) rest :=
  Lexicon.deliver?_mark (commentMove_opener hpair hnests hcloser depth) hinside

theorem deliver?_other (hpair : lexicon.blockComment = some (opener, closer)) {c : Char}
    (hcloser : ¬ closer <+: c :: rest) (hopener : lexicon.nestedComments = true → ¬ opener <+: c :: rest)
    (depth : Nat) (before : Text) :
    lexicon.deliver? (.comment depth) before (c :: rest) = lexicon.deliver? (.comment depth) (c :: before) rest := by
  have hmove : lexicon.move (.comment depth) before (c :: rest) = .token 1 (.comment depth) := by
    have hnone : (lexicon.nestedComments && Text.startsWith opener (c :: rest)) = false := by
      cases hnests : lexicon.nestedComments with
      | false => rfl
      | true =>
        rw [Bool.true_and, Bool.eq_false_iff, ne_eq, Text.startsWith_iff]
        exact hopener hnests
    simp only [Lexicon.move, Lexicon.commentMove, hpair, Text.startsWith_iff, hcloser, if_false, hnone,
      Bool.false_eq_true]
  rw [Lexicon.deliver?_token hmove Nat.one_pos (List.cons_ne_nil _ _)]
  rfl

end Moves

section Lines

variable {lexicon : Lexicon}

/-- A reader goes over the pieces of a comment that does not end before the last of them, and nothing is delivered. -/
theorem deliver?_of_splits (hpair : lexicon.blockComment = some (opener, closer))
    (hsplits : Splits opener closer lexicon.nestedComments after passed pieces) (hopen : OpenBefore depth pieces)
    (hdepth : depth = 0 → pieces = []) (before : Text) :
    lexicon.deliver? (state depth) before (passed ++ after) =
      lexicon.deliver? (state (level depth pieces).toNat) (passed.reverse ++ before) after := by
  induction hsplits generalizing depth before with
  | nil => simp
  | @closer passed pieces hinside hrest ih =>
    obtain ⟨depth, rfl⟩ := Nat.exists_eq_succ_of_ne_zero (mt hdepth (List.cons_ne_nil _ _))
    obtain ⟨htail, hzero⟩ := hopen.tail (level_closer depth)
    rw [List.append_assoc, Nat.succ_eq_add_one, level_closer]
    exact (deliver?_closer hpair hinside depth before).trans (by rw [ih htail hzero]; simp)
  | @opener passed pieces hnests hinside hcloser hrest ih =>
    obtain ⟨depth, rfl⟩ := Nat.exists_eq_succ_of_ne_zero (mt hdepth (List.cons_ne_nil _ _))
    obtain ⟨htail, hzero⟩ := hopen.tail (level_opener _)
    rw [List.append_assoc, level_opener]
    exact (deliver?_opener hpair hinside hnests hcloser _ before).trans
      ((ih htail hzero (opener.reverse ++ before)).trans (by simp))
  | @other c passed pieces hcloser hopener hrest ih =>
    obtain ⟨depth, rfl⟩ := Nat.exists_eq_succ_of_ne_zero (mt hdepth (List.cons_ne_nil _ _))
    obtain ⟨htail, hzero⟩ := hopen.tail (level_other _)
    rw [List.cons_append, level_other]
    exact (deliver?_other hpair hcloser hopener _ before).trans ((ih htail hzero (c :: before)).trans (by simp))

/-- A line is split into pieces up to the place where a comment of the given depth ends, or to its end if the comment
does not end on it. -/
structure SplitsUpTo (opener closer : Text) (nests : Bool) (depth : Nat) (line passed after : Text)
    (pieces : List Piece) : Prop where
  line_eq : line = passed ++ after
  splits : Splits opener closer nests after passed pieces
  open_before : OpenBefore depth pieces
  ends : level depth pieces = 0 ∨ after = [] ∧ 0 < level depth pieces

theorem SplitsUpTo.cons {inner : Nat} {rest taken : Text}
    (hrest : SplitsUpTo opener closer nests inner rest passed after pieces) (hdepth : 0 < depth)
    (hlevel : ∀ earlier, level depth (piece :: earlier) = level inner earlier)
    (hsplits : Splits opener closer nests after (taken ++ passed) (piece :: pieces)) :
    SplitsUpTo opener closer nests depth (taken ++ rest) (taken ++ passed) after (piece :: pieces) where
  line_eq := by rw [hrest.line_eq, List.append_assoc]
  splits := hsplits
  open_before := hrest.open_before.cons hdepth hlevel
  ends := by
    rw [hlevel]
    exact hrest.ends

/-- A reader in a comment stays for ever where an empty opening mark is met, if comments nest. -/
theorem deliver?_eq_none_of_opener (hpair : lexicon.blockComment = some ([], closer))
    (hnests : lexicon.nestedComments = true) {line : Text} (hcloser : ¬ closer <+: line) (hline : line ≠ [])
    (depth : Nat) (before : Text) : lexicon.deliver? (.comment depth) before line = none :=
  Lexicon.Lingers.deliver?_eq_none (Lexicon.lingers_of_deeper (commentMove_opener hpair hnests hcloser depth)) hline

/-- A line is split up to where a comment ends on it or to its end, unless a reader stays on it for ever. -/
theorem exists_splitsUpTo (hpair : lexicon.blockComment = some (opener, closer)) (depth : Nat) (line : Text) :
    (∃ passed after pieces, SplitsUpTo opener closer lexicon.nestedComments depth line passed after pieces) ∨
      (lexicon.nestedComments = true ∧ opener = [] ∧
        ∀ before, lexicon.deliver? (state depth) before line = none) := by
  -- a closing mark can be empty, and an opening mark adds a level, so each character counts twice
  induction hmeasure : 2 * line.length + depth using Nat.strong_induction_on generalizing line depth with
  | _ n ih =>
    subst hmeasure
    cases depth with
    | zero => exact .inl ⟨[], line, [], rfl, .nil, openBefore_nil 0, .inl (level_nil 0)⟩
    | succ depth =>
      by_cases hcloses : closer <+: line ∧ line ≠ []
      · obtain ⟨⟨rest, rfl⟩, hinside⟩ := hcloses
        obtain ⟨passed, after, pieces, hrest⟩ | ⟨hnests, hopener, hnone⟩ := ih (2 * rest.length + depth)
          (by rw [List.length_append]; omega) depth rest rfl
        · refine .inl ⟨closer ++ passed, after, .closer :: pieces,
            hrest.cons (Nat.succ_pos depth) (level_closer depth) (.closer ?_ hrest.splits)⟩
          rwa [← hrest.line_eq]
        · exact .inr ⟨hnests, hopener, fun before => (deliver?_closer hpair hinside depth before).trans (hnone _)⟩
      by_cases hopens : (lexicon.nestedComments = true ∧ opener <+: line) ∧ line ≠ []
      · obtain ⟨⟨hnests, rest, rfl⟩, hinside⟩ := hopens
        have hcloser : ¬ closer <+: opener ++ rest := fun hbegins => hcloses ⟨hbegins, hinside⟩
        by_cases hempty : opener = []
        · subst hempty
          exact .inr ⟨hnests, rfl, deliver?_eq_none_of_opener hpair hnests hcloser hinside _⟩
        have hpos := List.length_pos_iff.2 hempty
        obtain ⟨passed, after, pieces, hrest⟩ | ⟨_, hopener, _⟩ := ih (2 * rest.length + (depth + 1 + 1))
          (by rw [List.length_append]; omega) (depth + 1 + 1) rest rfl
        · refine .inl ⟨opener ++ passed, after, .opener :: pieces,
            hrest.cons (Nat.succ_pos depth) (level_opener _) (.opener hnests ?_ ?_ hrest.splits)⟩ <;>
            rwa [← hrest.line_eq]
        · exact absurd hopener hempty
      cases line with
      | nil => exact .inl ⟨[], [], [], rfl, .nil, openBefore_nil _, .inr ⟨rfl, by simp⟩⟩
      | cons c rest =>
        have hcloser : ¬ closer <+: c :: rest := fun hbegins => hcloses ⟨hbegins, List.cons_ne_nil _ _⟩
        have hopener : lexicon.nestedComments = true → ¬ opener <+: c :: rest := fun hnests hbegins =>
          hopens ⟨⟨hnests, hbegins⟩, List.cons_ne_nil _ _⟩
        obtain ⟨passed, after, pieces, hrest⟩ | ⟨hnests, hempty, hnone⟩ := ih (2 * rest.length + (depth + 1))
          (by rw [List.length_cons]; omega) (depth + 1) rest rfl
        · have hsplits : Splits opener closer lexicon.nestedComments after (c :: passed) (.other :: pieces) :=
            .other (by rwa [← hrest.line_eq]) (by rwa [← hrest.line_eq]) hrest.splits
          rw [← List.singleton_append]
          exact .inl ⟨[c] ++ passed, after, _, hrest.cons (Nat.succ_pos depth) (level_other _) hsplits⟩
        · exact .inr ⟨hnests, hempty, fun before => (deliver?_other hpair hcloser hopener _ before).trans (hnone _)⟩

/-- Each line is split whole, into the pieces listed for it. -/
def SplitWhole (opener closer : Text) (nests : Bool) (lines : List Text) (split : List (List Piece)) : Prop :=
  List.Forall₂ (Splits opener closer nests []) lines split

/-- Nothing is delivered of the lines, and each leaves the depth that the pieces so far make up. -/
def hiddenLines (depth : Nat) (split : List (List Piece)) : List (List (Nat × Char) × LexState) :=
  (List.range split.length).map fun index => ([], .comment (level depth (split.take (index + 1)).flatten).toNat)

theorem hiddenLines_cons (hlevel : 0 ≤ level depth pieces) (split : List (List Piece)) :
    hiddenLines depth (pieces :: split) =
      ([], .comment (level depth pieces).toNat) :: hiddenLines (level depth pieces).toNat split := by
  simp only [hiddenLines, List.length_cons, List.range_succ_eq_map, List.map_cons, List.map_map, List.take_succ_cons,
    List.take_zero, List.flatten_cons, List.flatten_nil, Function.comp_def, Nat.succ_eq_add_one, level_append hlevel,
    level_nil, Int.toNat_natCast]

theorem state_of_pos (hdepth : 0 < depth) : state depth = .comment depth := by
  obtain ⟨depth, rfl⟩ := Nat.exists_eq_succ_of_ne_zero (Nat.ne_of_gt hdepth)
  rfl

theorem StaysOpen.toNat_pos (hstays : StaysOpen depth pieces) : 0 < (level depth pieces).toNat := by
  have hpos := hstays.pos
  omega

/-- A line on which a comment does not end is passed over. -/
theorem deliver?_of_staysOpen (hpair : lexicon.blockComment = some (opener, closer)) {line : Text}
    (hsplits : Splits opener closer lexicon.nestedComments [] line pieces) (hstays : StaysOpen depth pieces)
    (hdepth : 0 < depth) (before : Text) :
    lexicon.deliver? (.comment depth) before line = some ([], .comment (level depth pieces).toNat) := by
  have hpieces := deliver?_of_splits hpair hsplits (fun earlier hearlier _ => hstays earlier hearlier)
    (fun hzero => absurd hzero (Nat.ne_of_gt hdepth)) before
  rwa [List.append_nil, Lexicon.deliver?_nil, state_of_pos hdepth, state_of_pos hstays.toNat_pos] at hpieces

theorem passage_of_staysOpen (hpair : lexicon.blockComment = some (opener, closer))
    {front : List Text} {split : List (List Piece)}
    (hwhole : SplitWhole opener closer lexicon.nestedComments front split) (hstays : StaysOpen depth split.flatten)
    (hdepth : 0 < depth) (before : Text) (lines : List Text) :
    lexicon.passage (.comment depth) before (front ++ lines) =
      hiddenLines depth split ++ lexicon.passage (.comment (level depth split.flatten).toNat)
        (if front = [] then before else []) lines := by
  induction hwhole generalizing depth before with
  | nil => simp [hiddenLines]
  | @cons line pieces front split hline hfront ih =>
    rw [List.flatten_cons, staysOpen_append_iff] at hstays
    obtain ⟨hfirst, hrest⟩ := hstays
    have hlevel := Int.le_of_lt hfirst.pos
    rw [List.cons_append, Lexicon.passage_cons (deliver?_of_staysOpen hpair hline hfirst hdepth before),
      ih hrest hfirst.toNat_pos, hiddenLines_cons hlevel, List.flatten_cons, level_append hlevel]
    simp

/-- A comment of the given depth gets through the lines `front` and ends on the next line, behind `passed`. -/
structure EndsOn (opener closer : Text) (nests : Bool) (depth : Nat) (front : List Text) (passed after : Text)
    (split : List (List Piece)) (last : List Piece) : Prop where
  front_split : SplitWhole opener closer nests front split
  last_split : Splits opener closer nests after passed last
  last_ne : last ≠ []
  open_before : OpenBefore depth (split.flatten ++ last)
  balanced : level depth (split.flatten ++ last) = 0

/-- A comment of the given depth gets through the lines. -/
structure GoesThrough (opener closer : Text) (nests : Bool) (depth : Nat) (lines : List Text)
    (split : List (List Piece)) : Prop where
  whole : SplitWhole opener closer nests lines split
  stays : StaysOpen depth split.flatten

theorem EndsOn.passage_eq (hpair : lexicon.blockComment = some (opener, closer)) {front : List Text} {split : List (List Piece)} {last : List Piece}
    (hends : EndsOn opener closer lexicon.nestedComments depth front passed after split last) (hdepth : 0 < depth)
    (before : Text) (later : List Text) :
    lexicon.passage (.comment depth) before (front ++ (passed ++ after) :: later) =
      hiddenLines depth split ++
        lexicon.passage .code (passed.reverse ++ if front = [] then before else []) (after :: later) := by
  have hstays := hends.open_before.staysOpen_of_append hends.last_ne
  have hlast := hends.balanced
  rw [level_append (Int.le_of_lt hstays.pos)] at hlast
  have hdeliver := deliver?_of_splits hpair hends.last_split
    (hstays.openBefore_append_iff.1 hends.open_before) (fun hzero => absurd hzero (Nat.ne_of_gt hstays.toNat_pos))
    (if front = [] then before else [])
  rw [hlast, state_of_pos hstays.toNat_pos] at hdeliver
  rw [passage_of_staysOpen hpair hends.front_split hstays hdepth]
  exact congrArg _ (Lexicon.passage_congr hdeliver later)

/-- A comment ends on one of the lines or gets through all of them, unless a reader stays on one of them for ever. -/
theorem exists_endsOn_or_goesThrough (hpair : lexicon.blockComment = some (opener, closer)) (hdepth : 0 < depth)
    (before : Text) (lines : List Text) :
    (∃ front passed after later split last, lines = front ++ (passed ++ after) :: later ∧
      EndsOn opener closer lexicon.nestedComments depth front passed after split last) ∨
    (∃ split, GoesThrough opener closer lexicon.nestedComments depth lines split) ∨
    (lexicon.nestedComments = true ∧ opener = [] ∧
      (lexicon.passage (.comment depth) before lines).length < lines.length) := by
  induction lines generalizing depth before with
  | nil =>
    refine .inr (.inl ⟨[], .nil, fun earlier hearlier => ?_⟩)
    obtain rfl := List.prefix_nil.1 hearlier
    simpa using hdepth
  | cons line lines ih =>
    obtain ⟨passed, after, pieces, rfl, hsplits, hopen, hends⟩ | ⟨hnests, hopener, hnone⟩ :=
      exists_splitsUpTo hpair depth line
    · obtain hzero | ⟨rfl, hpos⟩ := hends
      · refine .inl ⟨[], passed, after, lines, [], pieces, rfl, .nil, hsplits, ?_, hopen, hzero⟩
        rintro rfl
        rw [level_nil] at hzero
        omega
      · have hstays := hopen.staysOpen hpos
        rw [List.append_nil]
        obtain ⟨front, passed', after, later, split, last, rfl, hrest⟩ | ⟨split, hrest⟩ | ⟨hnests, hopener, hshort⟩ :=
          ih hstays.toNat_pos []
        · refine .inl ⟨passed :: front, passed', after, later, pieces :: split, last, rfl,
            .cons hsplits hrest.front_split, hrest.last_split, hrest.last_ne, ?_, ?_⟩
          · rw [List.flatten_cons, List.append_assoc]
            exact hstays.openBefore_append_iff.2 hrest.open_before
          · rw [List.flatten_cons, List.append_assoc, level_append (Int.le_of_lt hpos)]
            exact hrest.balanced
        · refine .inr (.inl ⟨pieces :: split, .cons hsplits hrest.whole, ?_⟩)
          exact staysOpen_append_iff.2 ⟨hstays, hrest.stays⟩
        · refine .inr (.inr ⟨hnests, hopener, ?_⟩)
          rw [Lexicon.passage_cons (deliver?_of_staysOpen hpair hsplits hstays hdepth before)]
          exact Nat.succ_lt_succ hshort
    · refine .inr (.inr ⟨hnests, hopener, ?_⟩)
      rw [Lexicon.passage, ← state_of_pos hdepth, hnone]
      exact Nat.succ_pos _

end Lines

section Flat

theorem Splits.opener_not_mem (hsplits : Splits opener closer false after passed pieces) : .opener ∉ pieces := by
  induction hsplits with
  | nil => simp
  | closer _ _ ih | other _ _ _ ih => simpa using ih
  | opener hnests => cases hnests

theorem SplitWhole.opener_not_mem {lines : List Text} {split : List (List Piece)}
    (hwhole : SplitWhole opener closer false lines split) : .opener ∉ split.flatten := by
  induction hwhole with
  | nil => simp
  | cons hline _ ih => simpa [hline.opener_not_mem] using ih

/-- Where comments do not nest, a comment ends at the first closing mark. -/
theorem EndsOn.closer_not_mem {front : List Text} {split : List (List Piece)} {last : List Piece}
    (hends : EndsOn opener closer false 1 front passed after split last) :
    .closer ∉ (split.flatten ++ last).dropLast := by
  have hopener : .opener ∉ split.flatten ++ last := by
    rw [List.mem_append]
    rintro (hmem | hmem)
    · exact hends.front_split.opener_not_mem hmem
    · exact hends.last_split.opener_not_mem hmem
  have hshorter : (split.flatten ++ last).dropLast ≠ split.flatten ++ last := by
    intro heq
    have hlength := congrArg List.length heq
    have hpos := List.length_pos_iff.2 hends.last_ne
    rw [List.length_dropLast, List.length_append] at hlength
    omega
  have hlevel := hends.open_before _ (List.dropLast_prefix _) hshorter
  have hcount : (split.flatten ++ last).dropLast.count .opener = 0 :=
    List.count_eq_zero.2 fun hmem => hopener (List.mem_of_mem_dropLast hmem)
  rw [level, hcount] at hlevel
  apply List.count_eq_zero.1
  omega

end Flat

/-- A comment ends at the closing mark with which opening and closing marks balance for the first time, on whatever line
that is: nothing is delivered before, and behind the mark the reader is in code. As long as this does not happen, each
line leaves the depth that the marks so far make up. One of the two is the case on all lines that can be split into
marks and characters; only where comments nest and their opening mark is empty, marks may be split off a line without
end, and then the reader stays on it for ever. Where comments do not nest, a comment of one level ends at the first
closing mark, and a reader is never in a deeper one. The marks can be any texts. -/
theorem ends_at_balance (lexicon : Lexicon) (hpair : lexicon.blockComment = some (opener, closer))
    (hdepth : 0 < depth) (before : Text) :
    (∀ front passed after later split last,
      EndsOn opener closer lexicon.nestedComments depth front passed after split last →
      lexicon.passage (.comment depth) before (front ++ (passed ++ after) :: later) =
        hiddenLines depth split ++
          lexicon.passage .code (passed.reverse ++ if front = [] then before else []) (after :: later)) ∧
    (∀ lines split, GoesThrough opener closer lexicon.nestedComments depth lines split →
      lexicon.passage (.comment depth) before lines = hiddenLines depth split) ∧
    (∀ lines, (∃ front passed after later split last, lines = front ++ (passed ++ after) :: later ∧
        EndsOn opener closer lexicon.nestedComments depth front passed after split last) ∨
      (∃ split, GoesThrough opener closer lexicon.nestedComments depth lines split) ∨
      (lexicon.nestedComments = true ∧ opener = [] ∧
        (lexicon.passage (.comment depth) before lines).length < lines.length)) ∧
    (lexicon.nestedComments = false →
      (depth = 1 → ∀ front passed after split last,
        EndsOn opener closer lexicon.nestedComments depth front passed after split last →
        .closer ∉ (split.flatten ++ last).dropLast) ∧
      (lexicon.Reachable (.comment depth) → depth = 1)) := by
  refine ⟨?_, ?_, ?_, fun hflat => ⟨?_, fun hreach => ?_⟩⟩
  · intro front passed after later split last hends
    exact hends.passage_eq hpair hdepth before later
  · intro lines split hthrough
    have hlines := passage_of_staysOpen hpair hthrough.whole hthrough.stays hdepth before []
    simpa [Lexicon.passage] using hlines
  · exact exists_endsOn_or_goesThrough hpair hdepth before
  · rintro rfl front passed after split last hends
    rw [hflat] at hends
    exact hends.closer_not_mem
  · exact hreach.tame.possible.2.2 hflat

/-- A line with marks that overlap: the opening mark is taken first, and nothing is left of the closing one. -/
def overlappingMarks : Text :=
  ['/', '*', '/', 'x']

/-- A line that ends two comments. -/
def twoCloses : Text :=
  ['*', '/', '*', '/', ' ', 'y']

theorem endsOn_twoCloses :
    EndsOn ['/', '*'] ['*', '/'] true 1 [overlappingMarks] ['*', '/', '*', '/'] [' ', 'y']
      [[.opener, .other, .other]] [.closer, .closer] where
  front_split := by
    have hrest : Splits ['/', '*'] ['*', '/'] true [] ['/', 'x'] [.other, .other] :=
      .other (by decide) (by decide) (.other (by decide) (by decide) .nil)
    exact .cons (.opener rfl (by decide) (by decide) hrest) .nil
  last_split := by
    have hlast : Splits ['/', '*'] ['*', '/'] true [' ', 'y'] (['*', '/'] ++ []) [.closer] := .closer (by decide) .nil
    exact .closer (by decide) hlast
  last_ne := by decide
  open_before := by decide
  balanced := by decide

theorem ends_at_balance_twoCloses :
    EndsOn ['/', '*'] ['*', '/'] true 1 [overlappingMarks] ['*', '/', '*', '/'] [' ', 'y']
        [[.opener, .other, .other]] [.closer, .closer] ∧
      Grammar.rustLexicon.passage (.comment 1) [] [overlappingMarks, twoCloses] =
        [([], .comment 2), ([(4, ' '), (5, 'y')], .code)] := by
  refine ⟨endsOn_twoCloses, ?_⟩
  have hpassage := (ends_at_balance Grammar.rustLexicon rfl Nat.one_pos []).1 _ _ _ [] _ _
    endsOn_twoCloses
  exact hpassage.trans (by decide)

end Comment

end Outline
