import Outline.Extent.Block
import Outline.Text.Lines

namespace Outline

section Windows

variable {lines : List Text} {first last : Nat}

theorem drop_windowOf (n : Nat) : (windowOf lines first last).drop n = windowOf lines (first + n) last := by
  rw [windowOf, windowOf, List.drop_take, List.drop_drop, Nat.sub_sub]

theorem windowOf_all (lines : List Text) : windowOf lines 0 (lines.length - 1) = lines := by
  rw [windowOf, List.drop_zero, List.take_of_length_le (by omega)]

theorem length_windowOf_le (lines : List Text) (first last : Nat) :
    (windowOf lines first last).length ≤ last + 1 - first ∧
      (windowOf lines first last).length ≤ lines.length - first := by
  simp only [windowOf, List.length_take, List.length_drop]
  omega

/-- A window that begins on one of the lines ends on its last line or on the last of all lines. -/
theorem add_length_windowOf (hfirst : first < lines.length) (hlast : first ≤ last) :
    first + (windowOf lines first last).length = min last (lines.length - 1) + 1 := by
  simp only [windowOf, List.length_take, List.length_drop]
  omega

theorem windowOf_ne_nil (hfirst : first < lines.length) (hlast : first ≤ last) : windowOf lines first last ≠ [] := by
  refine List.ne_nil_of_length_pos ?_
  have hlength := add_length_windowOf hfirst hlast
  omega

theorem last_windowOf (hfirst : first < lines.length) (hlast : first ≤ last) :
    first + (windowOf lines first last).length - 1 = min last (lines.length - 1) := by
  rw [add_length_windowOf hfirst hlast, Nat.add_sub_cancel]

theorem getElem?_of_windowOf {line : Text} {rest : List Text}
    (hwindow : windowOf lines first last = line :: rest) : lines[first]? = some line := by
  have hhead : (lines.drop first).head? = some line := by
    cases hdrop : lines.drop first with
    | nil => simp [windowOf, hdrop] at hwindow
    | cons head tail =>
      cases hcount : last + 1 - first with
      | zero => simp [windowOf, hcount] at hwindow
      | succ count =>
        rw [windowOf, hdrop, hcount, List.take_succ_cons] at hwindow
        rw [(List.cons.inj hwindow).1, List.head?_cons]
  rwa [List.head?_drop] at hhead

theorem windowOf_take {n : Nat} (hlast : last < n) :
    windowOf (lines.take n) first last = windowOf lines first last := by
  have hcount : min (last + 1 - first) (n - first) = last + 1 - first := by omega
  rw [windowOf, windowOf, List.drop_take, List.take_take, hcount]

end Windows

namespace Text

/-- The first `n` lines of a text with their line ends. -/
def headLines : Nat → Text → Text
  | 0, _ => []
  | _ + 1, [] => []
  | n + 1, c :: t => c :: (if c = '\n' then headLines n t else headLines (n + 1) t)

/-- The text after its first `n` lines. -/
def tailLines : Nat → Text → Text
  | 0, t => t
  | _ + 1, [] => []
  | n + 1, c :: t => if c = '\n' then tailLines n t else tailLines (n + 1) t

/-- The lines from `first` to `last` with their line ends, as far as there are lines. -/
def lineRange (first last : Nat) (t : Text) : Text :=
  headLines (last + 1 - first) (tailLines first t)

@[simp]
theorem headLines_zero (t : Text) : headLines 0 t = [] := by
  cases t <;> rfl

@[simp]
theorem tailLines_zero (t : Text) : tailLines 0 t = t := by
  cases t <;> rfl

/-- Cutting a text loses nothing. -/
theorem headLines_append_tailLines (n : Nat) (t : Text) : headLines n t ++ tailLines n t = t := by
  induction t generalizing n with
  | nil => cases n <;> rfl
  | cons c t ih =>
    cases n with
    | zero => rfl
    | succ n =>
      simp only [headLines, tailLines, List.cons_append]
      split <;> rw [ih]

/-- At least the unfinished line is among the first lines, however it goes on. -/
theorem linesFrom_headLines (n : Nat) (current t : Text) :
    linesFrom current (headLines (n + 1) t) = (linesFrom current t).take (n + 1) := by
  induction t generalizing n current with
  | nil =>
    rw [headLines, linesFrom]
    split <;> simp
  | cons c t ih =>
    by_cases hend : c = '\n'
    · simp only [headLines, linesFrom, if_pos hend, List.take_succ_cons]
      cases n with
      | zero => rw [headLines_zero]; rfl
      | succ n => rw [ih]
    · simp only [headLines, linesFrom, if_neg hend, ih]

theorem lines_headLines (n : Nat) (t : Text) : lines (headLines n t) = (lines t).take n := by
  cases n with
  | zero => rw [headLines_zero]; rfl
  | succ n => exact linesFrom_headLines n [] t

theorem lines_tailLines_succ (n : Nat) (current t : Text) :
    lines (tailLines (n + 1) t) = (linesFrom current t).drop (n + 1) := by
  induction t generalizing n current with
  | nil =>
    rw [tailLines, linesFrom]
    split <;> simp [lines, linesFrom]
  | cons c t ih =>
    by_cases hend : c = '\n'
    · simp only [tailLines, linesFrom, if_pos hend, List.drop_succ_cons]
      cases n with
      | zero => rw [tailLines_zero]; rfl
      | succ n => rw [ih n []]
    · simp only [tailLines, linesFrom, if_neg hend, ih n (c :: current)]

theorem lines_tailLines (n : Nat) (t : Text) : lines (tailLines n t) = (lines t).drop n := by
  cases n with
  | zero => rw [tailLines_zero]; rfl
  | succ n => exact lines_tailLines_succ n [] t

theorem lines_replicate_append (n : Nat) (t : Text) :
    lines (List.replicate n '\n' ++ t) = List.replicate n [] ++ lines t := by
  induction n with
  | zero => rfl
  | succ n ih =>
    rw [List.replicate_succ, List.replicate_succ, List.cons_append, List.cons_append, ← ih]
    rfl

/-- Lines one after the other, each with a line feed behind it. -/
def unlines : List Text → Text
  | [] => []
  | line :: rest => line ++ '\n' :: unlines rest

theorem linesFrom_append_feed {line : Text} (hline : '\n' ∉ line) (current t : Text) :
    linesFrom current (line ++ '\n' :: t) = (dropReturn (line.reverse ++ current)).reverse :: lines t := by
  induction line generalizing current with
  | nil => rfl
  | cons c line ih =>
    obtain ⟨hc, hline⟩ := not_or.1 fun hmem => hline (List.mem_cons.2 hmem)
    rw [List.cons_append, linesFrom, if_neg (Ne.symm hc), ih hline, List.reverse_cons, List.append_assoc]
    rfl

/-- Lines that were put in front of a text are its first lines, but for a carriage return that becomes
part of a line end. -/
theorem lines_unlines_append {front : List Text} (hfront : ∀ line ∈ front, '\n' ∉ line) (t : Text) :
    lines (unlines front ++ t) = front.map (fun line => (dropReturn line.reverse).reverse) ++ lines t := by
  induction front with
  | nil => rfl
  | cons line front ih =>
    have hrest := ih fun other hmem => hfront other (List.mem_cons_of_mem _ hmem)
    rw [unlines, List.append_assoc, List.cons_append, lines,
      linesFrom_append_feed (hfront line List.mem_cons_self), List.append_nil, hrest, List.map_cons,
      List.cons_append]

/-- No line of the text is left unfinished. -/
def EndsLine (t : Text) : Prop :=
  t = [] ∨ ['\n'] <:+ t

instance (t : Text) : Decidable (EndsLine t) :=
  inferInstanceAs (Decidable (_ ∨ _))

theorem linesFrom_append_cons_feed (front current t : Text) :
    linesFrom current (front ++ '\n' :: t) = linesFrom current (front ++ ['\n']) ++ lines t := by
  induction front generalizing current with
  | nil => rfl
  | cons c front ih =>
    rw [List.cons_append, List.cons_append, linesFrom, linesFrom]
    split
    · rw [ih, List.cons_append]
    · exact ih _

/-- The lines of a text behind finished lines come after these. -/
theorem EndsLine.lines_append {front : Text} (hfront : EndsLine front) (t : Text) :
    lines (front ++ t) = lines front ++ lines t := by
  rcases hfront with rfl | ⟨begun, rfl⟩
  · rfl
  · rw [List.append_assoc, List.singleton_append]
    exact linesFrom_append_cons_feed begun [] t

/-- The lines of a range are a window of the lines. -/
theorem lines_lineRange (first last : Nat) (t : Text) :
    lines (lineRange first last t) = windowOf (lines t) first last := by
  rw [lineRange, lines_headLines, lines_tailLines, windowOf]

end Text

end Outline
