import Outline.Scan

namespace Outline

section Collectors

theorem snd_joinAttribute_le (text : Text) (lines : List Text) :
    (joinAttribute text lines).2 ≤ lines.length := by
  induction lines generalizing text with
  | nil => exact Nat.le_refl _
  | cons line rest ih =>
    simp only [joinAttribute]
    split
    · exact Nat.succ_le_succ (ih _)
    · exact Nat.zero_le _

theorem joinAttribute_take {text : Text} {lines : List Text} {n : Nat}
    (htaken : (joinAttribute text lines).2 ≤ n) :
    joinAttribute text (lines.take n) = joinAttribute text lines := by
  induction lines generalizing text n with
  | nil => rw [List.take_nil]
  | cons line rest ih =>
    simp only [joinAttribute] at htaken ⊢
    by_cases hopen : bracketBalance text > 0
    · simp only [hopen, if_true] at htaken ⊢
      obtain ⟨n, rfl⟩ : ∃ m, n = m + 1 := ⟨n - 1, by omega⟩
      rw [List.take_succ_cons, joinAttribute, if_pos hopen, ih (by omega)]
    · rw [if_neg hopen]
      cases n with
      | zero => rfl
      | succ n => rw [List.take_succ_cons, joinAttribute, if_neg hopen]

theorem AttributeStyle.snd_collect_le (line : Text) (following : List Text) :
    (collect line following).2 ≤ following.length := by
  refine Nat.le_trans (snd_joinAttribute_le _ _) ?_
  rw [List.length_take]
  exact Nat.min_le_right _ _

theorem AttributeStyle.collect_take {line : Text} {following : List Text} {n : Nat}
    (htaken : (collect line following).2 ≤ n) : collect line (following.take n) = collect line following := by
  simp only [collect] at htaken ⊢
  rw [List.take_take, Nat.min_comm, ← List.take_take, joinAttribute_take htaken]

theorem DocStyle.snd_collectBlock_le (closer text : Text) (lines : List Text) :
    (collectBlock closer text lines).2 ≤ lines.length := by
  induction lines generalizing text with
  | nil => exact Nat.le_refl _
  | cons next rest ih =>
    simp only [collectBlock]
    split
    · exact Nat.zero_le _
    · exact Nat.succ_le_succ (ih _)

theorem DocStyle.collectBlock_take {closer text : Text} {lines : List Text} {n : Nat}
    (htaken : (collectBlock closer text lines).2 ≤ n) :
    collectBlock closer text (lines.take n) = collectBlock closer text lines := by
  induction lines generalizing text n with
  | nil => rw [List.take_nil]
  | cons next rest ih =>
    cases hclosed : Text.cut? closer text with
    | some parts =>
      cases n with
      | zero => simp [collectBlock, hclosed]
      | succ n => simp [collectBlock, hclosed]
    | none =>
      simp only [collectBlock, hclosed] at htaken ⊢
      obtain ⟨n, rfl⟩ : ∃ m, n = m + 1 := ⟨n - 1, by omega⟩
      simp only [List.take_succ_cons, collectBlock, hclosed]
      rw [ih (by omega)]

theorem DocStyle.snd_collectBlockDoc_le (style : DocStyle) (line : Text) (following : List Text) :
    (style.collectBlockDoc line following).2 ≤ following.length := by
  unfold collectBlockDoc
  split
  · exact Nat.zero_le _
  · exact snd_collectBlock_le _ _ _

theorem DocStyle.collectBlockDoc_take {style : DocStyle} {line : Text} {following : List Text} {n : Nat}
    (htaken : (style.collectBlockDoc line following).2 ≤ n) :
    style.collectBlockDoc line (following.take n) = style.collectBlockDoc line following := by
  unfold collectBlockDoc at htaken ⊢
  split
  · rfl
  · next opener closer hblock =>
    simp only [hblock] at htaken
    simp only [collectBlock_take htaken]

theorem collectLiteral_le {quote : Text} {lines : List Text} {found : List Text × Nat}
    (hfound : collectLiteral quote lines = some found) : found.2 ≤ lines.length := by
  induction lines generalizing found with
  | nil => simp [collectLiteral] at hfound
  | cons line rest ih =>
    simp only [collectLiteral] at hfound
    split at hfound
    · obtain rfl := Option.some.inj hfound
      exact Nat.succ_le_succ (Nat.zero_le _)
    · obtain ⟨later, hlater, rfl⟩ := Option.map_eq_some_iff.1 hfound
      exact Nat.succ_le_succ (ih hlater)

theorem collectLiteral_take {quote : Text} {lines : List Text} {n : Nat}
    (htaken : ∀ found, collectLiteral quote lines = some found → found.2 ≤ n) :
    collectLiteral quote (lines.take n) = collectLiteral quote lines := by
  induction lines generalizing n with
  | nil => rw [List.take_nil]
  | cons line rest ih =>
    simp only [collectLiteral] at htaken ⊢
    cases n with
    | zero =>
      -- A literal takes its first line, so that none was found.
      rw [List.take_zero, collectLiteral]
      split
      · next text after hcut =>
        have := htaken ([text], 1) (by rw [hcut])
        omega
      · next hcut =>
        cases hrest : collectLiteral quote rest with
        | none => rfl
        | some later =>
          have := htaken (line :: later.1, later.2 + 1) (by rw [hcut, hrest]; rfl)
          omega
    | succ n =>
      rw [List.take_succ_cons, collectLiteral]
      split
      · rfl
      · next hcut =>
        rw [ih]
        intro found hfound
        have := htaken (line :: found.1, found.2 + 1) (by rw [hcut, hfound]; rfl)
        omega

theorem collectStringDoc?_le {line : Text} {following : List Text} {found : Text × Nat}
    (hfound : collectStringDoc? line following = some found) : found.2 ≤ following.length := by
  unfold collectStringDoc? at hfound
  split at hfound
  · simp at hfound
  · split at hfound
    · obtain rfl := Option.some.inj hfound
      exact Nat.zero_le _
    · split at hfound
      · simp at hfound
      · obtain ⟨later, hlater, rfl⟩ := Option.map_eq_some_iff.1 hfound
        exact collectLiteral_le hlater

theorem collectStringDoc?_take {line : Text} {following : List Text} {n : Nat}
    (htaken : ∀ found, collectStringDoc? line following = some found → found.2 ≤ n) :
    collectStringDoc? line (following.take n) = collectStringDoc? line following := by
  unfold collectStringDoc? at htaken ⊢
  split
  · rfl
  · next quote body hopen =>
    split
    · rfl
    · next hcut =>
      split
      · rfl
      · next hlong =>
        rw [collectLiteral_take]
        intro later hlater
        exact htaken (cleanLines (body :: later.1), later.2) (by simp [hopen, hcut, hlong, hlater])

end Collectors

/-- How many of the lines after it a line takes with it. -/
def Prelude.further : Prelude → Nat
  | .absorbed _ further => further
  | _ => 0

/-- What a line does in a scan, whatever the limits and wherever the line stands. -/
inductive LineRole where
  /-- The line and `further` lines after it declare nothing. -/
  | passed (further : Nat) (carry : Carry)
  /-- A rule accepts the line. Should its name be blank, the scan goes on with `skipped`. -/
  | heads (heading : Heading) (attrs : Text) (pending : Pending) (skipped : Carry)

/-- How many of the lines after it a line takes with it. -/
def LineRole.further : LineRole → Nat
  | .passed further _ => further
  | .heads .. => 0

namespace Grammar

variable (grammar : Grammar)

/-- The role of a line, given what carries over to it and the lines after it. -/
def roleOf (carry : Carry) (line : Text) (rest : List Text) : LineRole :=
  if carry.isInside then .passed 0 (grammar.passOver carry line)
  else
    match grammar.preludeOf carry.pending line rest with
    | .blank => .passed 0 carry
    | .absorbed pending further => .passed further { carry with pending := pending }
    | .code pending lead code =>
      let parts := grammar.attributes.splitLeading code
      match grammar.heading? (Text.byteSize (lead ++ parts.1)) parts.2 with
      | none =>
        .passed 0 (grammar.passOver { carry with pending := grammar.pendingAfter pending lead line } line)
      | some heading =>
        .heads heading parts.1 pending
          (grammar.passOver { carry with pending := grammar.pendingAfter .empty lead line } line)

variable {grammar}

theorem further_preludeOfCode_le (pending : Pending) (lead rest line : Text) (following : List Text) :
    (grammar.preludeOfCode pending lead rest line following).further ≤ following.length := by
  simp only [preludeOfCode]
  split
  · exact AttributeStyle.snd_collect_le _ _
  · split
    · split
      · next hfound => exact collectStringDoc?_le hfound
      · exact Nat.zero_le _
    · exact Nat.zero_le _

theorem preludeOfCode_take {pending : Pending} {lead rest line : Text} {following : List Text} {n : Nat}
    (htaken : (grammar.preludeOfCode pending lead rest line following).further ≤ n) :
    grammar.preludeOfCode pending lead rest line (following.take n) =
      grammar.preludeOfCode pending lead rest line following := by
  unfold preludeOfCode at htaken ⊢
  by_cases hattribute : grammar.attributes.startsAttribute (Text.trim line) = true
  · rw [if_pos hattribute] at htaken ⊢
    rw [if_pos hattribute, AttributeStyle.collect_take htaken]
  · rw [if_neg hattribute] at htaken ⊢
    rw [if_neg hattribute]
    split
    · next hquoted =>
      rw [if_pos hquoted] at htaken
      rw [collectStringDoc?_take]
      intro found hfound
      simpa only [hfound, Prelude.further] using htaken
    · rfl

/-- A line takes no more lines with it than there are. -/
theorem further_preludeOf_le (grammar : Grammar) (pending : Pending) (line : Text) (following : List Text) :
    (grammar.preludeOf pending line following).further ≤ following.length := by
  simp only [preludeOf]
  split
  · exact Nat.zero_le _
  · split
    · split
      · exact further_preludeOfCode_le _ _ _ _ _
      · exact DocStyle.snd_collectBlockDoc_le _ _ _
    · split
      · exact Nat.zero_le _
      · exact further_preludeOfCode_le _ _ _ _ _

/-- Lines behind those that a line takes with it do not matter to it. -/
theorem preludeOf_take {pending : Pending} {line : Text} {following : List Text} {n : Nat}
    (htaken : (grammar.preludeOf pending line following).further ≤ n) :
    grammar.preludeOf pending line (following.take n) = grammar.preludeOf pending line following := by
  unfold preludeOf at htaken ⊢
  by_cases hblank : (Text.trim line).isEmpty = true
  · rw [if_pos hblank, if_pos hblank]
  rw [if_neg hblank] at htaken ⊢
  rw [if_neg hblank]
  by_cases hblock : grammar.docs.startsBlockDoc (Text.trim line) = true
  · rw [if_pos hblock] at htaken ⊢
    rw [if_pos hblock]
    split
    · next hcode =>
      simp only [hcode] at htaken
      exact preludeOfCode_take htaken
    · next hcode =>
      simp only [hcode] at htaken
      rw [DocStyle.collectBlockDoc_take htaken]
  · rw [if_neg hblock] at htaken ⊢
    rw [if_neg hblock]
    split
    · rfl
    · next hdoc =>
      simp only [hdoc] at htaken
      exact preludeOfCode_take htaken

theorem further_roleOf_le (grammar : Grammar) (carry : Carry) (line : Text) (rest : List Text) :
    (grammar.roleOf carry line rest).further ≤ rest.length := by
  have hprelude := further_preludeOf_le grammar carry.pending line rest
  unfold roleOf
  split
  · exact Nat.zero_le _
  · split
    · exact Nat.zero_le _
    · next hrole => rwa [hrole] at hprelude
    · simp only
      split <;> exact Nat.zero_le _

/-- A blank line in code is passed over and changes nothing. -/
theorem roleOf_blank (grammar : Grammar) {carry : Carry} {line : Text} (hcode : carry.isInside = false)
    (hblank : (Text.trim line).isEmpty = true) (rest : List Text) :
    grammar.roleOf carry line rest = .passed 0 carry := by
  simp only [roleOf, hcode, Bool.false_eq_true, if_false, preludeOf, hblank, if_true]

/-- The role of a line stays the same when lines behind those it takes are cut off. -/
theorem roleOf_take {carry : Carry} {line : Text} {rest : List Text} {n : Nat}
    (htaken : (grammar.roleOf carry line rest).further ≤ n) :
    grammar.roleOf carry line (rest.take n) = grammar.roleOf carry line rest := by
  unfold roleOf at htaken ⊢
  by_cases hinside : carry.isInside = true
  · rw [if_pos hinside, if_pos hinside]
  rw [if_neg hinside] at htaken ⊢
  rw [if_neg hinside, preludeOf_take]
  cases hprelude : grammar.preludeOf carry.pending line rest with
  | absorbed pending further =>
    rw [hprelude] at htaken
    exact htaken
  | _ => exact Nat.zero_le _

end Grammar

end Outline
