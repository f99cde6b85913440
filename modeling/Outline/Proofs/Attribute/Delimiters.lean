import Outline.Attribute
import Outline.Proofs.Extent.Balance

namespace Outline

variable {opener closer : Char} {t inner rest : Text}

/-- The pairs of a text, with `depth` open ones before it, are all closed at its end for the first time. -/
structure ClosesAtEnd (opener closer : Char) (depth : Int) (t : Text) : Prop where
  closed : depth + Text.tally (pairValue opener closer) t = 0
  before : ∀ front, front <+: t → front ≠ t → depth + Text.tally (pairValue opener closer) front ≠ 0

/-- The pairs of a text, with `depth` open ones before it, are never all closed. -/
def StaysOpen (opener closer : Char) (depth : Int) (t : Text) : Prop :=
  ∀ front, front <+: t → depth + Text.tally (pairValue opener closer) front ≠ 0

section Step

variable {depth : Int} {c : Char}

theorem closesAtEnd_zero_iff : ClosesAtEnd opener closer 0 t ↔ t = [] := by
  constructor
  · intro hend
    exact Decidable.byContradiction fun hne => hend.before [] List.nil_prefix (Ne.symm hne) rfl
  · rintro rfl
    exact ⟨rfl, fun front hfront hne => absurd (List.prefix_nil.1 hfront) hne⟩

theorem closesAtEnd_cons_iff (hdepth : depth ≠ 0) :
    ClosesAtEnd opener closer depth (c :: t) ↔ ClosesAtEnd opener closer (depth + pairValue opener closer c) t := by
  constructor
  · rintro ⟨hclosed, hbefore⟩
    rw [Text.tally_cons, ← Int.add_assoc] at hclosed
    refine ⟨hclosed, fun front hfront hne => ?_⟩
    have hlater := hbefore (c :: front) (List.cons_prefix_cons.2 ⟨rfl, hfront⟩) (fun heq => hne (List.cons.inj heq).2)
    rwa [Text.tally_cons, ← Int.add_assoc] at hlater
  · rintro ⟨hclosed, hbefore⟩
    refine ⟨by rwa [Text.tally_cons, ← Int.add_assoc], fun front hfront hne => ?_⟩
    rcases List.prefix_cons_iff.1 hfront with rfl | ⟨part, rfl, hpart⟩
    · rwa [Text.tally_nil, Int.add_zero]
    · rw [Text.tally_cons, ← Int.add_assoc]
      exact hbefore part hpart fun heq => hne (by rw [heq])

/-- What closes all pairs at its end begins with the character that the text begins with. -/
theorem cons_eq_append_closesAtEnd_iff (hdepth : depth ≠ 0) :
    c :: t = inner ++ rest ∧ ClosesAtEnd opener closer depth inner ↔
      ∃ later, inner = c :: later ∧ t = later ++ rest ∧
        ClosesAtEnd opener closer (depth + pairValue opener closer c) later := by
  constructor
  · rintro ⟨heq, hend⟩
    cases inner with
    | nil =>
      have hclosed := hend.closed
      rw [Text.tally_nil, Int.add_zero] at hclosed
      exact absurd hclosed hdepth
    | cons d later =>
      obtain ⟨rfl, rfl⟩ := List.cons.inj heq
      exact ⟨later, rfl, rfl, (closesAtEnd_cons_iff hdepth).1 hend⟩
  · rintro ⟨later, rfl, rfl, hend⟩
    exact ⟨rfl, (closesAtEnd_cons_iff hdepth).2 hend⟩

theorem staysOpen_cons_iff (hdepth : depth ≠ 0) :
    StaysOpen opener closer depth (c :: t) ↔ StaysOpen opener closer (depth + pairValue opener closer c) t := by
  constructor
  · intro hopen front hfront
    have hlater := hopen (c :: front) (List.cons_prefix_cons.2 ⟨rfl, hfront⟩)
    rwa [Text.tally_cons, ← Int.add_assoc] at hlater
  · intro hopen front hfront
    rcases List.prefix_cons_iff.1 hfront with rfl | ⟨part, rfl, hpart⟩
    · rwa [Text.tally_nil, Int.add_zero]
    · rw [Text.tally_cons, ← Int.add_assoc]
      exact hopen part hpart

end Step

section Search

variable {depth : Nat}

/-- While a pair is open, the search for its end stops at the character that closes it and takes any other. -/
theorem upToClose?_cons (hdepth : 0 < depth) (c : Char) (t : Text) :
    upToClose? opener closer depth (c :: t) =
      if (depth : Int) + pairValue opener closer c = 0 then some ([c], t)
      else (upToClose? opener closer ((depth : Int) + pairValue opener closer c).toNat t).map
        fun parts => (c :: parts.1, parts.2) := by
  rw [upToClose?, pairValue]
  by_cases hopener : c = opener
  · have hcount : ((depth : Int) + 1).toNat = depth + 1 := rfl
    rw [if_pos hopener, if_pos hopener, if_neg (by omega), hcount]
  rw [if_neg hopener, if_neg hopener]
  by_cases hcloser : c = closer
  · have hcount : ((depth : Int) + -1).toNat = depth - 1 := by omega
    rw [if_pos hcloser, if_pos hcloser, hcount]
    by_cases hlast : depth ≤ 1
    · rw [if_pos hlast, if_pos (by omega)]
    · rw [if_neg hlast, if_neg (by omega)]
  · have hcount : ((depth : Int) + 0).toNat = depth := by omega
    rw [if_neg hcloser, if_neg hcloser, if_neg (by omega), hcount]

theorem toNat_add_pairValue (hdepth : 0 < depth) (opener closer c : Char) :
    (((depth : Int) + pairValue opener closer c).toNat : Int) = depth + pairValue opener closer c := by
  have hvalue := neg_one_le_pairValue opener closer c
  omega

/-- The search takes what closes all pairs at its end. -/
theorem upToClose?_eq_some_iff (hdepth : 0 < depth) :
    upToClose? opener closer depth t = some (inner, rest) ↔
      t = inner ++ rest ∧ ClosesAtEnd opener closer depth inner := by
  -- a character leaves the same question for the text behind it, with its own count of open pairs
  have hne : (depth : Int) ≠ 0 := by omega
  induction t generalizing depth inner with
  | nil =>
    refine ⟨nofun, ?_⟩
    rintro ⟨heq, hclosed, -⟩
    rw [(List.append_eq_nil_iff.1 heq.symm).1, Text.tally_nil, Int.add_zero] at hclosed
    exact absurd hclosed hne
  | cons c t ih =>
    rw [upToClose?_cons hdepth, cons_eq_append_closesAtEnd_iff hne]
    by_cases hzero : (depth : Int) + pairValue opener closer c = 0
    · rw [if_pos hzero, hzero, Option.some.injEq, Prod.mk.injEq]
      constructor
      · rintro ⟨rfl, rfl⟩
        exact ⟨[], rfl, rfl, closesAtEnd_zero_iff.2 rfl⟩
      · rintro ⟨later, rfl, rfl, hend⟩
        obtain rfl := closesAtEnd_zero_iff.1 hend
        exact ⟨rfl, rfl⟩
    · have hcount := toNat_add_pairValue hdepth opener closer c
      rw [if_neg hzero, Option.map_eq_some_iff]
      constructor
      · rintro ⟨⟨later, more⟩, hsearch, heq⟩
        obtain ⟨rfl, rfl⟩ := Prod.mk.inj heq
        obtain ⟨hmore, hend⟩ := (ih (by omega) (by omega)).1 hsearch
        exact ⟨later, rfl, hmore, hcount ▸ hend⟩
      · rintro ⟨later, rfl, hmore, hend⟩
        exact ⟨(later, rest), (ih (by omega) (by omega)).2 ⟨hmore, hcount.symm ▸ hend⟩, rfl⟩

/-- The search fails where the pairs are never all closed. -/
theorem upToClose?_eq_none_iff (hdepth : 0 < depth) :
    upToClose? opener closer depth t = none ↔ StaysOpen opener closer depth t := by
  have hne : (depth : Int) ≠ 0 := by omega
  induction t generalizing depth with
  | nil =>
    refine ⟨fun _ front hfront => ?_, fun _ => rfl⟩
    rwa [List.prefix_nil.1 hfront, Text.tally_nil, Int.add_zero]
  | cons c t ih =>
    rw [upToClose?_cons hdepth, staysOpen_cons_iff hne]
    by_cases hzero : (depth : Int) + pairValue opener closer c = 0
    · rw [if_pos hzero]
      refine ⟨nofun, fun hopen => ?_⟩
      exact absurd (by rw [Text.tally_nil, Int.add_zero, hzero]) (hopen [] List.nil_prefix)
    · have hcount := toNat_add_pairValue hdepth opener closer c
      rw [if_neg hzero, Option.map_eq_none_iff, ← hcount]
      exact ih (by omega) (by omega)

end Search

theorem eq_of_pairValue_neg {c : Char} (hneg : pairValue opener closer c < 0) : c = closer := by
  rw [pairValue] at hneg
  split at hneg
  · contradiction
  · split at hneg
    · assumption
    · contradiction

/-- The last character closes a pair. -/
theorem ClosesAtEnd.ends {depth : Int} (hdepth : 0 < depth) (hend : ClosesAtEnd opener closer depth t) :
    [closer] <:+ t := by
  induction t generalizing depth with
  | nil =>
    have hclosed := hend.closed
    rw [Text.tally_nil] at hclosed
    omega
  | cons c t ih =>
    -- only a closing character takes the count to zero, and nothing stands behind it
    by_cases hzero : depth + pairValue opener closer c = 0
    · have hlater := (closesAtEnd_cons_iff (by omega)).1 hend
      rw [hzero, closesAtEnd_zero_iff] at hlater
      obtain rfl : c = closer := eq_of_pairValue_neg (show pairValue opener closer c < 0 by omega)
      exact hlater ▸ List.suffix_refl [c]
    · have hvalue := neg_one_le_pairValue opener closer c
      have hlater := (closesAtEnd_cons_iff (by omega)).1 hend
      exact (ih (by omega) hlater).trans (List.suffix_cons c t)

/-- The search from an opening delimiter takes the part behind it that closes this one pair. -/
theorem upToClose?_opener_eq_some_iff :
    upToClose? opener closer 0 (opener :: t) = some (inner, rest) ↔
      ∃ later, inner = opener :: later ∧ t = later ++ rest ∧ ClosesAtEnd opener closer 1 later := by
  have hsearch {later : Text} : upToClose? opener closer 1 t = some (later, rest) ↔
      t = later ++ rest ∧ ClosesAtEnd opener closer 1 later := upToClose?_eq_some_iff Nat.one_pos
  rw [upToClose?, if_pos rfl, Option.map_eq_some_iff]
  constructor
  · rintro ⟨⟨later, more⟩, hfound, heq⟩
    obtain ⟨rfl, rfl⟩ := Prod.mk.inj heq
    exact ⟨later, rfl, hsearch.1 hfound⟩
  · rintro ⟨later, rfl, hlater⟩
    exact ⟨(later, rest), hsearch.2 hlater, rfl⟩

theorem upToClose?_opener_eq_none_iff :
    upToClose? opener closer 0 (opener :: t) = none ↔ StaysOpen opener closer 1 t := by
  have hsearch : upToClose? opener closer 1 t = none ↔ StaysOpen opener closer 1 t :=
    upToClose?_eq_none_iff Nat.one_pos
  rw [upToClose?, if_pos rfl, Option.map_eq_none_iff, hsearch]

/-- From an opening delimiter up to the one that closes it the pairs balance. -/
theorem tally_of_upToClose?_cons (hclose : upToClose? opener closer 0 (opener :: t) = some (inner, rest)) :
    Text.tally (pairValue opener closer) inner = 0 := by
  obtain ⟨later, rfl, -, hend⟩ := upToClose?_opener_eq_some_iff.1 hclose
  have hvalue : pairValue opener closer opener = 1 := if_pos rfl
  rw [Text.tally_cons, hvalue, hend.closed]

end Outline
