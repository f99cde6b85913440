import Outline.Proofs.Pattern.Matching
import Outline.Proofs.Text.Solid

namespace Outline

namespace Pattern

/-- The preferred place to which the pattern leads. -/
def Prefers (p : Pattern) (start stop : Cursor) : Prop :=
  (p.advance start).head? = some stop

/-- The pattern leads nowhere. -/
def Fails (p : Pattern) (start : Cursor) : Prop :=
  p.advance start = []

variable {p first second : Pattern} {start middle stop : Cursor} {cls : CharClass} {taken rest t : Text}

theorem head?_distinct (cursors : List Cursor) : (Cursor.distinct [] cursors).head? = cursors.head? := by
  cases cursors with
  | nil => rfl
  | cons cursor cursors => rfl

section Parts

theorem prefers_empty (start : Cursor) : Prefers .empty start start := rfl

theorem prefers_one {c : Char} (hrest : start.rest = c :: rest) (hclass : cls.contains c = true) :
    Prefers (.one cls) start (start.skip [c] rest) := by
  rw [Prefers, advance, hrest]
  simp only [hclass, if_true]
  rfl

theorem prefers_assert {condition : Assertion} (holds : start.holds condition = true) :
    Prefers (.assert condition) start start := by
  rw [Prefers, advance, if_pos holds]
  rfl

theorem Prefers.seq (hfirst : Prefers first start middle) (hsecond : Prefers second middle stop) :
    Prefers (first ++ second) start stop := by
  obtain ⟨places, hplaces⟩ := List.head?_eq_some_iff.1 hfirst
  obtain ⟨further, hfurther⟩ := List.head?_eq_some_iff.1 hsecond
  change (Cursor.distinct [] ((first.advance start).flatMap second.advance)).head? = some stop
  rw [head?_distinct, hplaces, List.flatMap_cons, hfurther]
  rfl

theorem Prefers.group {label : Group} (hbody : Prefers p start stop) :
    Prefers (.group label p) start (stop.remember label start.pos) := by
  rw [Prefers, advance, List.head?_map, hbody]
  rfl

/-- What may be left out is not where it leads on. -/
theorem Prefers.opt (hprefers : Prefers p start stop) : Prefers (opt p) start stop := by
  obtain ⟨places, hplaces⟩ := List.head?_eq_some_iff.1 hprefers
  rw [Prefers, Pattern.opt, advance, head?_distinct, hplaces]
  rfl

theorem fails_one {c : Char} (hrest : start.rest = c :: rest) (hclass : cls.contains c = false) :
    Fails (.one cls) start := by
  rw [Fails, advance, hrest]
  simp only [hclass, Bool.false_eq_true, if_false]

theorem Fails.seq (hfirst : Fails first start) (second : Pattern) : Fails (first ++ second) start := by
  change Cursor.distinct [] ((first.advance start).flatMap second.advance) = []
  rw [hfirst]
  rfl

theorem Fails.prefers_alt (hfirst : Fails first start) (hsecond : Prefers second start stop) :
    Prefers (.alt first second) start stop := by
  rw [Prefers, advance, head?_distinct, hfirst, List.nil_append]
  exact hsecond

/-- What leads nowhere is left out if it may be. -/
theorem Fails.prefers_opt (hfails : Fails p start) : Prefers (opt p) start start :=
  hfails.prefers_alt (prefers_empty start)

theorem Fails.alt (hfirst : Fails first start) (hsecond : Fails second start) : Fails (.alt first second) start := by
  rw [Fails, advance, hfirst, hsecond]
  rfl

theorem fails_of_not_matches (hnone : ∀ stop, ¬ Matches p start stop) : Fails p start := by
  rw [Fails, List.eq_nil_iff_forall_not_mem]
  intro stop hmem
  exact hnone stop (matches_of_mem_advance hmem)

end Parts

section Runs

theorem getLast?_runFrom (hclass : ∀ c ∈ taken, cls.contains c = true)
    (hrest : ∀ c ∈ rest.head?, cls.contains c = false) (groups : List (Group × Capture)) (pos : Nat) (seen : Text) :
    (Cursor.runFrom cls groups pos seen (taken ++ rest)).getLast? =
      some ⟨pos + taken.length, taken.reverse ++ seen, rest, groups⟩ := by
  induction taken generalizing pos seen with
  | nil =>
    cases rest with
    | nil => rfl
    | cons c rest =>
      rw [List.nil_append, Cursor.runFrom, if_neg (by simp [hrest c rfl])]
      rfl
  | cons c taken ih =>
    obtain ⟨hc, htaken⟩ := List.forall_mem_cons.1 hclass
    rw [List.cons_append, Cursor.runFrom, if_pos hc, List.getLast?_cons, ih htaken]
    simp [Nat.add_assoc, Nat.add_comm 1]

/-- A run prefers to go over as many characters of its class as there are. -/
theorem prefers_run (hstart : start.rest = taken ++ rest) (hclass : ∀ c ∈ taken, cls.contains c = true)
    (hrest : ∀ c ∈ rest.head?, cls.contains c = false) : Prefers (.run cls true) start (start.skip taken rest) := by
  rw [Prefers, advance]
  simp only [if_true, List.head?_reverse]
  rw [hstart, getLast?_runFrom hclass hrest]
  rfl

theorem prefers_run1 {c : Char} (hstart : start.rest = c :: (taken ++ rest))
    (hclass : ∀ d ∈ c :: taken, cls.contains d = true) (hrest : ∀ d ∈ rest.head?, cls.contains d = false) :
    Prefers (run1 cls) start (start.skip (c :: taken) rest) := by
  obtain ⟨hc, htaken⟩ := List.forall_mem_cons.1 hclass
  have hskip : start.skip (c :: taken) rest = (start.skip [c] (taken ++ rest)).skip taken rest := by
    simp [Cursor.skip, Nat.add_assoc, Nat.add_comm 1]
  rw [hskip]
  exact (prefers_one hstart hc).seq (prefers_run rfl htaken hrest)

theorem prefers_ofText (t : Text) (hstart : start.rest = t ++ rest) : Prefers (ofText t) start (start.skip t rest) := by
  fun_induction ofText t generalizing start with
  | case1 =>
    have hskip : start.skip [] rest = start := by
      cases start
      simp_all [Cursor.skip]
    rw [hskip]
    exact prefers_empty start
  | case2 c => exact prefers_one hstart (by simp [CharClass.contains])
  | case3 c t hne ih =>
    have hskip : start.skip (c :: t) rest = (start.skip [c] (t ++ rest)).skip t rest := by
      simp [Cursor.skip, Nat.add_assoc, Nat.add_comm 1]
    rw [hskip]
    exact (prefers_one hstart (by simp [CharClass.contains])).seq (ih rfl)

/-- A word and the space behind it. -/
theorem prefers_word {s : String} (hstart : start.rest = s.toList ++ ' ' :: rest) (hrest : Text.StartsSolid rest) :
    Prefers (word s) start (start.skip (s.toList ++ [' ']) rest) := by
  obtain ⟨c, more, rfl, hc⟩ := hrest
  have hskip : start.skip (s.toList ++ [' ']) (c :: more) =
      (start.skip s.toList (' ' :: c :: more)).skip [' '] (c :: more) := by
    simp [Cursor.skip, Nat.add_assoc]
  have hblank : ∀ d ∈ [' '], CharClass.blank.contains d = true := List.forall_mem_singleton.2 (by decide)
  have hsolid : ∀ d ∈ (c :: more).head?, CharClass.blank.contains d = false := by
    simpa [CharClass.contains] using hc
  rw [hskip]
  exact (prefers_ofText s.toList hstart).seq (prefers_run1 rfl hblank hsolid)

theorem rest_eq_of_matches_one {c : Char} (hmatches : Matches (.one (.char c)) start stop) :
    start.rest = c :: stop.rest := by
  cases hmatches with
  | one hrest hclass =>
    obtain rfl := beq_iff_eq.1 hclass
    exact hrest

theorem rest_eq_of_matches_ofText {t : Text} (hmatches : Matches (ofText t) start stop) :
    start.rest = t ++ stop.rest := by
  fun_induction ofText t generalizing start with
  | case1 =>
    cases hmatches
    rfl
  | case2 c => exact rest_eq_of_matches_one hmatches
  | case3 c t hne ih =>
    cases hmatches with
    | seq hfirst hsecond => rw [rest_eq_of_matches_one hfirst, ih hsecond, List.cons_append]

/-- A word leads nowhere unless it stands there with white space behind it. -/
theorem fails_word {s : String} (hnone : ∀ c more, start.rest = s.toList ++ c :: more → isBlank c = false) :
    Fails (word s) start := by
  apply fails_of_not_matches
  intro stop hmatches
  cases hmatches with
  | seq hword hgap =>
    cases hgap with
    | seq hone hrun =>
      cases hone with
      | one hrest hblank =>
        have hword := rest_eq_of_matches_ofText hword
        rw [hrest] at hword
        have hnot := hnone _ _ hword
        exact absurd hblank (by simp [CharClass.contains, hnot])

end Runs

section Found

/-- What is remembered is what was passed. -/
theorem text?_remember_skip (label : Group) (start : Cursor) (taken rest : Text) :
    ((start.skip taken rest).remember label start.pos).text? label = some taken := by
  have htaken : (taken.reverse ++ start.seen).take taken.length = taken.reverse :=
    List.take_left' List.length_reverse
  simp [Cursor.text?, Cursor.capture?, Cursor.remember, Cursor.skip, htaken]

/-- Where a pattern leads nowhere from any place of a text, nothing is found in it. -/
theorem findFrom_eq_nil (hfails : ∀ pos seen c rest, c :: rest <:+ t → Fails p ⟨pos, seen, c :: rest, []⟩)
    (pos : Nat) (seen : Text) : p.findFrom 0 pos seen t = [] := by
  induction t generalizing pos seen with
  | nil => rfl
  | cons c t ih =>
    have hhere : p.advance ⟨pos, seen, c :: t, []⟩ = [] := hfails pos seen c t List.suffix_rfl
    rw [findFrom, hhere]
    apply ih
    intro pos seen d rest hsuffix
    exact hfails pos seen d rest (hsuffix.trans (List.suffix_cons c t))

end Found

end Pattern

end Outline
