import Outline.Proofs.Text.Lines

namespace Outline

namespace Text

/-- The rest of the line and the lines after it, at a place behind `before` that `t` follows. -/
def restLines (before t : Text) : List Text :=
  match linesFrom before t with
  | [] => []
  | line :: more => line.drop before.length :: more

/-- What precedes on its line the place that is reached over `t` from a place behind `before`. -/
def behind (before t : Text) : Text :=
  t.foldl (fun before c => if c = '\n' then [] else c :: before) before

variable {before x : Text}

theorem restLines_nil (t : Text) : restLines [] t = lines t := by
  unfold restLines lines
  cases linesFrom [] t <;> rfl

theorem behind_append (before s t : Text) : behind before (s ++ t) = behind (behind before s) t := by
  rw [behind, behind, behind, List.foldl_append]

theorem behind_of_not_mem (hx : '\n' ∉ x) (before : Text) : behind before x = x.reverse ++ before := by
  induction x generalizing before with
  | nil => rfl
  | cons c x ih =>
    obtain ⟨hc, hx⟩ := not_or.1 (mt List.mem_cons.2 hx)
    have hstep : behind before (c :: x) = behind (c :: before) x := by
      rw [behind, List.foldl_cons, if_neg (Ne.symm hc), behind]
    rw [hstep, ih hx, List.reverse_cons, List.append_assoc, List.singleton_append]

theorem behind_feed (before t : Text) : behind before ('\n' :: t) = behind [] t := rfl

theorem linesFrom_append (hx : '\n' ∉ x) (before t : Text) :
    linesFrom before (x ++ t) = linesFrom (x.reverse ++ before) t := by
  induction x generalizing before with
  | nil => rfl
  | cons c x ih =>
    obtain ⟨hc, hx⟩ := not_or.1 (mt List.mem_cons.2 hx)
    rw [List.cons_append, linesFrom, if_neg (Ne.symm hc), ih hx, List.reverse_cons, List.append_assoc,
      List.singleton_append]

/-- A line that has begun goes on with a part of the text, whatever it began with. Only a carriage return at its end
could be dropped. -/
theorem exists_linesFrom {d : Char} (hd : d ≠ '\r') (further t : Text) :
    ∃ rest more, (∀ before, linesFrom (further ++ d :: before) t = ((d :: before).reverse ++ rest) :: more) ∧
      rest <+: further.reverse ++ t := by
  induction t generalizing further with
  | nil =>
    refine ⟨further.reverse, [], fun before => ?_, List.prefix_append _ _⟩
    simp [linesFrom]
  | cons c t ih =>
    by_cases hc : c = '\n'
    · simp only [linesFrom, if_pos hc]
      cases further with
      | nil =>
        refine ⟨[], lines t, fun before => ?_, List.nil_prefix⟩
        simp [dropReturn, hd, lines]
      | cons e further =>
        by_cases he : e = '\r'
        · subst he
          refine ⟨further.reverse, lines t, fun before => by simp [dropReturn, lines], ?_⟩
          simp
        · refine ⟨(e :: further).reverse, lines t, fun before => ?_, List.prefix_append _ _⟩
          simp [dropReturn, he, lines]
    · simp only [linesFrom, if_neg hc]
      obtain ⟨rest, more, hlines, hbegins⟩ := ih (c :: further)
      refine ⟨rest, more, hlines, ?_⟩
      simpa using hbegins

/-- What stands in front of a text joins its first line. -/
theorem exists_lines_front {d : Char} (hd : d ≠ '\n' ∧ d ≠ '\r') (t : Text) :
    ∃ rest more, lines (d :: t) = (d :: rest) :: more ∧
      ∀ front, '\n' ∉ front → lines (front ++ d :: t) = (front ++ d :: rest) :: more := by
  obtain ⟨rest, more, hlines, -⟩ := exists_linesFrom hd.2 [] t
  have hfront (front : Text) (hfeed : '\n' ∉ front) : lines (front ++ d :: t) = (front ++ d :: rest) :: more := by
    rw [lines, linesFrom_append hfeed, linesFrom, if_neg hd.1, List.append_nil]
    simpa using hlines front.reverse
  exact ⟨rest, more, hfront [] List.not_mem_nil, hfront⟩

/-- Text that belongs to the line on which it begins, whatever follows it. -/
structure Inline (x : Text) : Prop where
  ne_nil : x ≠ []
  feed : '\n' ∉ x
  last : '\r' ∉ x.getLast?

theorem inline_of_forall (hne : x ≠ []) (hx : ∀ c ∈ x, c ≠ '\n' ∧ c ≠ '\r') : Inline x where
  ne_nil := hne
  feed hmem := (hx _ hmem).1 rfl
  last hmem := (hx _ (List.mem_of_getLast? hmem)).2 rfl

theorem Inline.append_left (hx : Inline x) {y : Text} (hy : '\n' ∉ y) : Inline (y ++ x) where
  ne_nil := List.append_ne_nil_of_right_ne_nil y hx.ne_nil
  feed := by
    rw [List.mem_append]
    exact not_or.2 ⟨hy, hx.feed⟩
  last := by
    obtain ⟨d, hd⟩ := Option.isSome_iff_exists.1 (List.getLast?_isSome.2 hx.ne_nil)
    have hlast := hx.last
    rw [hd] at hlast
    rwa [List.getLast?_append, hd]

theorem exists_restLines_append (hx : Inline x) (before t : Text) :
    ∃ rest more, restLines before (x ++ t) = (x ++ rest) :: more ∧
      restLines (behind before x) t = rest :: more ∧ rest <+: t := by
  obtain ⟨hne, hfeed, hlast⟩ := hx
  obtain rfl | ⟨x, d, rfl⟩ := List.eq_nil_or_concat x
  · exact absurd rfl hne
  have hd : d ≠ '\r' := by simpa using hlast
  obtain ⟨rest, more, hlines, hbegins⟩ := exists_linesFrom hd [] t
  have hbehind : (x.concat d).reverse ++ before = d :: (x.reverse ++ before) := by simp
  replace hlines := hlines (x.reverse ++ before)
  rw [List.nil_append] at hlines
  refine ⟨rest, more, ?_, ?_, by simpa using hbegins⟩
  · rw [restLines, linesFrom_append hfeed, hbehind, hlines]
    simp
  · rw [behind_of_not_mem hfeed, hbehind, restLines, hlines]
    exact congrArg (· :: more) (List.drop_left' List.length_reverse)

/-- Up to a line feed the text is the rest of the line, but for a carriage return before the feed. -/
theorem restLines_append_feed (hx : '\n' ∉ x) (before t : Text) :
    restLines before (x ++ '\n' :: t) = (dropReturn x.reverse).reverse :: lines t := by
  rw [restLines, linesFrom_append_feed hx]
  cases hreverse : x.reverse with
  | nil =>
    cases before with
    | nil => rfl
    | cons c before =>
      by_cases hc : c = '\r'
      · subst hc
        simp [dropReturn]
      · simp [dropReturn, hc]
  | cons c y =>
    by_cases hc : c = '\r'
    · subst hc
      simp [dropReturn]
    · simp [dropReturn, hc]

theorem dropReturn_suffix (t : Text) : dropReturn t <:+ t := by
  cases t with
  | nil => exact List.suffix_rfl
  | cons c t =>
    by_cases hc : c = '\r'
    · subst hc
      exact List.suffix_cons _ _
    · simp [dropReturn, hc]

end Text

end Outline
