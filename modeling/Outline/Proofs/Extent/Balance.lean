import Outline.Extent.Braces

namespace Outline

namespace Text

/-- The sum of the values of the characters. -/
def tally (value : Char → Int) : Text → Int
  | [] => 0
  | c :: t => value c + tally value t

variable (value : Char → Int)

@[simp]
theorem tally_nil : tally value [] = 0 := rfl

@[simp]
theorem tally_cons (c : Char) (t : Text) : tally value (c :: t) = value c + tally value t := rfl

@[simp]
theorem tally_append (s t : Text) : tally value (s ++ t) = tally value s + tally value t := by
  induction s with
  | nil => simp
  | cons c s ih => rw [List.cons_append, tally_cons, ih, tally_cons, Int.add_assoc]

end Text

/-- One for the character that opens a pair, minus one for the one that closes it. -/
def pairValue (opener closer : Char) (c : Char) : Int :=
  if c = opener then 1 else if c = closer then -1 else 0

theorem neg_one_le_pairValue (opener closer c : Char) : -1 ≤ pairValue opener closer c := by
  unfold pairValue
  split
  · decide
  · split <;> decide

/-- Without a character that opens a pair the balance is not above zero. -/
theorem mem_of_tally_pairValue_pos {opener closer : Char} {code : Text}
    (hpos : 0 < Text.tally (pairValue opener closer) code) : opener ∈ code := by
  induction code with
  | nil => simp at hpos
  | cons c code ih =>
    by_cases hopener : c = opener
    · exact hopener ▸ List.mem_cons_self
    · have hvalue : pairValue opener closer c ≤ 0 := by
        rw [pairValue, if_neg hopener]
        split <;> decide
      rw [Text.tally_cons] at hpos
      exact List.mem_cons_of_mem c (ih (by omega))

/-- One for a round or square bracket that opens, minus one for one that closes. -/
def parenValue (c : Char) : Int :=
  if c = '(' || c = '[' then 1 else if c = ')' || c = ']' then -1 else 0

/-- One for a bracket of any of the three shapes that opens, minus one for one that closes. -/
def bracketValue (c : Char) : Int :=
  if isOpenBracket c then 1 else if isCloseBracket c then -1 else 0

theorem bracketStep_eq (balance : Int) (c : Char) : bracketStep balance c = balance + bracketValue c := by
  unfold bracketStep bracketValue
  split
  · rfl
  · split <;> omega

theorem foldl_bracketStep (balance : Int) (code : Text) :
    code.foldl bracketStep balance = balance + Text.tally bracketValue code := by
  induction code generalizing balance with
  | nil => simp
  | cons c code ih => rw [List.foldl_cons, ih, bracketStep_eq, Text.tally_cons, Int.add_assoc]

namespace PairCount

variable {opener closer : Char}

theorem foldl_step_closed (depth : Int) (code : Text) :
    code.foldl (step opener closer) ⟨depth, true⟩ = ⟨depth, true⟩ := by
  induction code with
  | nil => rfl
  | cons c code ih => rw [List.foldl_cons, step, if_pos rfl, ih]

theorem step_open (depth : Int) (c : Char) (hdepth : 0 < depth) :
    step opener closer ⟨depth, false⟩ c =
      ⟨depth + pairValue opener closer c, depth + pairValue opener closer c == 0⟩ := by
  have hne : (depth == 0) = false := beq_eq_false_iff_ne.2 (by omega)
  have hnext : (depth + 1 == 0) = false := beq_eq_false_iff_ne.2 (by omega)
  unfold step pairValue
  rw [if_neg Bool.false_ne_true]
  by_cases hopener : c = opener
  · simp [hopener, hnext]
  · by_cases hcloser : c = closer
    · rw [if_neg hopener, if_pos hcloser, if_neg hopener, if_pos hcloser]
      rfl
    · simp [hopener, hcloser, hne]

/-- A count that starts above zero closes exactly when it is zero after some part of the code. -/
theorem closed_foldl_iff {depth : Int} (hdepth : 0 < depth) (code : Text) :
    (code.foldl (step opener closer) ⟨depth, false⟩).closed = true ↔
      ∃ part, part <+: code ∧ depth + Text.tally (pairValue opener closer) part = 0 := by
  induction code generalizing depth with
  | nil =>
    simp only [List.foldl_nil, Bool.false_eq_true, List.prefix_nil, exists_eq_left, Text.tally_nil, false_iff]
    omega
  | cons c code ih =>
    rw [List.foldl_cons, step_open depth c hdepth]
    by_cases hzero : depth + pairValue opener closer c = 0
    · simp only [hzero, beq_self_eq_true, foldl_step_closed, true_iff]
      exact ⟨[c], by simp, by simpa using hzero⟩
    · have hvalue := neg_one_le_pairValue opener closer c
      have hpos : 0 < depth + pairValue opener closer c := by omega
      rw [beq_eq_false_iff_ne.2 hzero, ih hpos]
      constructor
      · rintro ⟨part, hpart, hbalance⟩
        exact ⟨c :: part, List.cons_prefix_cons.2 ⟨rfl, hpart⟩, by rw [Text.tally_cons]; omega⟩
      · rintro ⟨part, hpart, hbalance⟩
        cases part with
        | nil =>
          rw [Text.tally_nil] at hbalance
          omega
        | cons d part =>
          obtain ⟨rfl, htail⟩ := List.cons_prefix_cons.1 hpart
          exact ⟨part, htail, by rw [Text.tally_cons] at hbalance; omega⟩

/-- A count that has not closed is the balance of the code, and still above zero. -/
theorem depth_foldl_of_open {depth : Int} (hdepth : 0 < depth) {code : Text}
    (hopen : ¬ (code.foldl (step opener closer) ⟨depth, false⟩).closed = true) :
    (code.foldl (step opener closer) ⟨depth, false⟩).depth =
        depth + Text.tally (pairValue opener closer) code ∧
      0 < depth + Text.tally (pairValue opener closer) code := by
  induction code generalizing depth with
  | nil => simpa using hdepth
  | cons c code ih =>
    rw [List.foldl_cons, step_open depth c hdepth] at hopen ⊢
    by_cases hzero : depth + pairValue opener closer c = 0
    · simp [hzero, foldl_step_closed] at hopen
    · have hvalue := neg_one_le_pairValue opener closer c
      have hpos : 0 < depth + pairValue opener closer c := by omega
      rw [beq_eq_false_iff_ne.2 hzero] at hopen ⊢
      rw [Text.tally_cons, ← Int.add_assoc]
      exact ih hpos hopen

end PairCount

theorem BlockRules.netCount_eq (opener closer : Char) (code : Text) :
    netCount opener closer code = (Text.tally (pairValue opener closer) code, decide (opener ∈ code)) := by
  have hfold : ∀ count : Int × Bool, code.foldl (fun count c =>
      if c = opener then (count.1 + 1, true) else if c = closer then (count.1 - 1, count.2) else count) count =
        (count.1 + Text.tally (pairValue opener closer) code, count.2 || decide (opener ∈ code)) := by
    induction code with
    | nil => simp
    | cons c code ih =>
      intro count
      rw [List.foldl_cons, ih, Text.tally_cons, pairValue]
      by_cases hopener : c = opener
      · simp [hopener, Int.add_assoc]
      · have hne : opener ≠ c := Ne.symm hopener
        by_cases hcloser : c = closer
        · simp only [if_neg hopener, if_pos hcloser, List.mem_cons, hne, false_or, Prod.mk.injEq, and_true]
          omega
        · simp [hopener, hcloser, hne]
  rw [netCount, hfold]
  simp

/-- Whether a character decides, outside brackets, how the search for the opening ends. -/
def Decides (opener : Char) (terminator : Terminator) (c : Char) : Prop :=
  c = opener ∨ c = ';' ∧ terminator = .semicolon
deriving Decidable

/-- Nothing in the code decides the search for the opening when `parens` brackets are open before it: whatever
could do so stands inside round or square brackets. -/
def Undecided (opener : Char) (terminator : Terminator) (parens : Int) (code : Text) : Prop :=
  ∀ part c, part ++ [c] <+: code → Decides opener terminator c → 0 < parens + Text.tally parenValue part

section Undecided

variable {opener : Char} {terminator : Terminator} {parens : Int} {c : Char} {code : Text}

theorem undecided_nil : Undecided opener terminator parens [] := by
  intro part c hpart
  simp at hpart

theorem undecided_cons : Undecided opener terminator parens (c :: code) ↔
    (Decides opener terminator c → 0 < parens) ∧ Undecided opener terminator (parens + parenValue c) code := by
  constructor
  · intro h
    refine ⟨fun hc => by simpa using h [] c (by simp) hc, fun part d hpart hd => ?_⟩
    have hpos := h (c :: part) d (List.cons_prefix_cons.2 ⟨rfl, hpart⟩) hd
    rwa [Text.tally_cons, ← Int.add_assoc] at hpos
  · rintro ⟨hfirst, hrest⟩ part d hpart hd
    cases part with
    | nil =>
      obtain ⟨rfl, _⟩ := List.cons_prefix_cons.1 hpart
      simpa using hfirst hd
    | cons e part =>
      obtain ⟨rfl, htail⟩ := List.cons_prefix_cons.1 hpart
      rw [Text.tally_cons, ← Int.add_assoc]
      exact hrest part d htail hd

instance : (parens : Int) → (code : Text) → Decidable (Undecided opener terminator parens code)
  | _, [] => .isTrue undecided_nil
  | parens, c :: code =>
    have := instDecidableUndecided (parens + parenValue c) code
    decidable_of_iff _ undecided_cons.symm

theorem undecided_append {later : Text} : Undecided opener terminator parens (code ++ later) ↔
    Undecided opener terminator parens code ∧
      Undecided opener terminator (parens + Text.tally parenValue code) later := by
  induction code generalizing parens with
  | nil => simp [undecided_nil]
  | cons c code ih =>
    rw [List.cons_append, undecided_cons, ih, undecided_cons, Text.tally_cons, and_assoc, Int.add_assoc]

theorem Undecided.of_isPrefix {part : Text} (hcode : Undecided opener terminator parens code)
    (hpart : part <+: code) : Undecided opener terminator parens part := by
  obtain ⟨later, rfl⟩ := hpart
  exact (undecided_append.1 hcode).1

/-- Code that decides the search has a first character that does. -/
theorem undecided_or_first (opener : Char) (terminator : Terminator) (parens : Int) (code : Text) :
    Undecided opener terminator parens code ∨ ∃ before c after, code = before ++ c :: after ∧
      Undecided opener terminator parens before ∧ Decides opener terminator c ∧
        parens + Text.tally parenValue before ≤ 0 := by
  induction code generalizing parens with
  | nil => exact .inl undecided_nil
  | cons c code ih =>
    by_cases hc : Decides opener terminator c → 0 < parens
    · rcases ih (parens + parenValue c) with hrest | ⟨before, d, after, rfl, hbefore, hd, hparens⟩
      · exact .inl (undecided_cons.2 ⟨hc, hrest⟩)
      · refine .inr ⟨c :: before, d, after, rfl, undecided_cons.2 ⟨hc, hbefore⟩, hd, ?_⟩
        rwa [Text.tally_cons, ← Int.add_assoc]
    · obtain ⟨hdecides, hparens⟩ := Classical.not_imp.1 hc
      exact .inr ⟨[], c, code, rfl, undecided_nil, hdecides, by simpa using Int.not_lt.1 hparens⟩

end Undecided

namespace HeadScan

variable {opener closer : Char} {terminator : Terminator}

theorem step_undecided {parens : Int} {c : Char} (hc : Decides opener terminator c → 0 < parens) :
    step opener closer terminator ⟨parens, 0, false, false⟩ c = ⟨parens + parenValue c, 0, false, false⟩ := by
  unfold step parenValue
  rw [if_neg Bool.false_ne_true, if_neg Bool.false_ne_true]
  split
  · rfl
  · split
    · rfl
    · split
      · next hends =>
        simp only [Bool.and_eq_true, decide_eq_true_eq, beq_iff_eq] at hends
        have := hc (.inr ⟨hends.1.1, hends.2⟩)
        omega
      · split
        · next hopens =>
          simp only [Bool.and_eq_true, decide_eq_true_eq] at hopens
          have := hc (.inl hopens.1)
          omega
        · simp

/-- Over code that decides nothing the scan only counts brackets. -/
theorem foldl_step_undecided {parens : Int} {code : Text} (hcode : Undecided opener terminator parens code) :
    code.foldl (step opener closer terminator) ⟨parens, 0, false, false⟩ =
      ⟨parens + Text.tally parenValue code, 0, false, false⟩ := by
  induction code generalizing parens with
  | nil => simp
  | cons c code ih =>
    obtain ⟨hc, hrest⟩ := undecided_cons.1 hcode
    rw [List.foldl_cons, step_undecided hc, ih hrest, Text.tally_cons, Int.add_assoc]

theorem foldl_step_opened (parens depth : Int) (code : Text) :
    code.foldl (step opener closer terminator) ⟨parens, depth, true, false⟩ =
      ⟨parens, depth + Text.tally (pairValue opener closer) code, true, false⟩ := by
  induction code generalizing depth with
  | nil => simp
  | cons c code ih =>
    have hstep : step opener closer terminator ⟨parens, depth, true, false⟩ c =
        ⟨parens, depth + pairValue opener closer c, true, false⟩ := by
      unfold step pairValue
      rw [if_neg Bool.false_ne_true, if_pos rfl]
      split
      · rfl
      · split
        · rfl
        · simp
    rw [List.foldl_cons, hstep, ih, Text.tally_cons, Int.add_assoc]

theorem step_opener {parens : Int} (hopener : opener ∉ ['(', ')', '[', ']', ';']) (hparens : parens ≤ 0) :
    step opener closer terminator ⟨parens, 0, false, false⟩ opener = ⟨parens, 1, true, false⟩ := by
  simp only [List.mem_cons, List.not_mem_nil, or_false, not_or] at hopener
  simp [step, hopener, hparens]

theorem step_semicolon {parens : Int} (hparens : parens ≤ 0) :
    (step opener closer .semicolon ⟨parens, 0, false, false⟩ ';').terminated = true := by
  simp [step, hparens]

theorem foldl_step_terminated {scan : HeadScan} (hends : scan.terminated = true) (code : Text) :
    (code.foldl (step opener closer terminator) scan).terminated = true := by
  induction code generalizing scan with
  | nil => exact hends
  | cons c code ih => exact ih (by rw [step, if_pos hends, hends])

/-- A semicolon outside brackets before any opening ends the declaration. -/
theorem terminated_foldl_step {parens : Int} {before : Text} (hterminator : terminator = .semicolon)
    (hbefore : Undecided opener terminator parens before)
    (hparens : parens + Text.tally parenValue before ≤ 0) (after : Text) :
    ((before ++ ';' :: after).foldl (step opener closer terminator) ⟨parens, 0, false, false⟩).terminated = true := by
  subst hterminator
  rw [List.foldl_append, foldl_step_undecided hbefore, List.foldl_cons]
  exact foldl_step_terminated (step_semicolon hparens) after

/-- From the first opening outside brackets on the scan counts pairs. -/
theorem foldl_step_opener {parens : Int} {before : Text} (hopener : opener ∉ ['(', ')', '[', ']', ';'])
    (hbefore : Undecided opener terminator parens before)
    (hparens : parens + Text.tally parenValue before ≤ 0) (after : Text) :
    (before ++ opener :: after).foldl (step opener closer terminator) ⟨parens, 0, false, false⟩ =
      ⟨parens + Text.tally parenValue before, 1 + Text.tally (pairValue opener closer) after, true, false⟩ := by
  rw [List.foldl_append, foldl_step_undecided hbefore, List.foldl_cons, step_opener hopener hparens,
    foldl_step_opened]

end HeadScan

end Outline
