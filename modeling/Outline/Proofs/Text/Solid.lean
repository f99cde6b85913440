import Mathlib.Data.List.TakeWhile
import Outline.Proofs.Text.Edges
import Outline.Proofs.Text.Places

namespace Outline

namespace Text

/-- Nothing but white space. -/
def Blank (t : Text) : Prop :=
  ∀ c ∈ t, isBlank c = true

instance (t : Text) : Decidable (Blank t) :=
  decidable_of_iff (t.all isBlank = true) List.all_eq_true

/-- The first character is there and is not white space. -/
def StartsSolid (t : Text) : Prop :=
  ∃ c rest, t = c :: rest ∧ isBlank c = false

/-- The last character is there and is not white space. -/
def EndsSolid (t : Text) : Prop :=
  ∃ front c, t = front ++ [c] ∧ isBlank c = false

/-- The text is not empty, and its ends are not white space. -/
structure Solid (t : Text) : Prop where
  starts : StartsSolid t
  ends : EndsSolid t

variable {s t fill before after : Text}

section Ends

theorem StartsSolid.append (ht : StartsSolid t) (u : Text) : StartsSolid (t ++ u) := by
  obtain ⟨c, rest, rfl, hc⟩ := ht
  exact ⟨c, rest ++ u, rfl, hc⟩

theorem EndsSolid.append (ht : EndsSolid t) (u : Text) : EndsSolid (u ++ t) := by
  obtain ⟨front, c, rfl, hc⟩ := ht
  exact ⟨u ++ front, c, by rw [List.append_assoc], hc⟩

theorem EndsSolid.ne_nil (ht : EndsSolid t) : t ≠ [] := by
  obtain ⟨front, c, rfl, -⟩ := ht
  exact List.append_ne_nil_of_right_ne_nil front (List.cons_ne_nil c [])

theorem endsSolid_of_append_cons {c : Char} (hc : isBlank c = true) (hst : EndsSolid (s ++ c :: t)) : EndsSolid t := by
  obtain ⟨front, d, heq, hd⟩ := hst
  obtain rfl | ⟨u, e, rfl⟩ := List.eq_nil_or_concat t
  · obtain ⟨-, rfl⟩ := List.append_inj' heq rfl |>.imp_right List.singleton_inj.1
    rw [hc] at hd
    contradiction
  · rw [List.concat_eq_append, ← List.cons_append, ← List.append_assoc] at heq
    obtain ⟨-, rfl⟩ := List.append_inj' heq rfl |>.imp_right List.singleton_inj.1
    exact ⟨u, e, List.concat_eq_append, hd⟩

theorem solid_of_forall (hne : t ≠ []) (ht : ∀ c ∈ t, isBlank c = false) : Solid t where
  starts := by
    obtain ⟨c, rest, rfl⟩ := List.exists_cons_of_ne_nil hne
    exact ⟨c, rest, rfl, ht c List.mem_cons_self⟩
  ends := by
    obtain rfl | ⟨front, c, rfl⟩ := List.eq_nil_or_concat t
    · exact absurd rfl hne
    · exact ⟨front, c, List.concat_eq_append, ht c (by simp)⟩

end Ends

section Trimming

theorem trimStart_blank_append (hbefore : Blank before) (t : Text) : trimStart (before ++ t) = trimStart t := by
  rw [trimStart, List.dropWhile_append_of_pos hbefore, trimStart]

theorem leadingBlank_append_trimStart (t : Text) : leadingBlank t ++ trimStart t = t :=
  List.takeWhile_append_dropWhile

theorem blank_leadingBlank (t : Text) : Blank (leadingBlank t) :=
  List.all_eq_true.1 List.all_takeWhile

/-- The white space at the beginning of a text ends where the text is solid. -/
theorem leadingBlank_append (hbefore : Blank before) (ht : StartsSolid t) : leadingBlank (before ++ t) = before := by
  obtain ⟨c, rest, rfl, hc⟩ := ht
  rw [leadingBlank, List.takeWhile_append_of_pos hbefore, List.takeWhile_cons_of_neg (by simp [hc]), List.append_nil]

theorem trimEnd_append_blank (hafter : Blank after) (t : Text) : trimEnd (t ++ after) = trimEnd t := by
  have hreverse : Blank after.reverse := fun c hc => hafter c (List.mem_reverse.1 hc)
  rw [trimEnd, List.reverse_append, List.dropWhile_append_of_pos hreverse, trimEnd]

theorem trim_blank_append (hbefore : Blank before) (t : Text) : trim (before ++ t) = trim t := by
  rw [trim, trimStart_blank_append hbefore, trim]

theorem trim_append_blank (hafter : Blank after) (t : Text) : trim (t ++ after) = trim t := by
  rw [trim, trimStart, List.dropWhile_append]
  cases hleft : t.dropWhile isBlank with
  | nil =>
    have hnone : after.dropWhile isBlank = [] := by
      have hstart := trimStart_blank_append hafter []
      rwa [List.append_nil] at hstart
    rw [List.isEmpty_nil, if_pos rfl, hnone, trim, trimStart, hleft]
  | cons c left =>
    rw [List.isEmpty_cons, if_neg Bool.false_ne_true, ← hleft, trimEnd_append_blank hafter, trim, trimStart]

theorem trim_blank (ht : Blank t) : trim t = [] := by
  have htrim := trim_blank_append ht []
  rwa [List.append_nil] at htrim

theorem trim_sublist (t : Text) : (trim t).Sublist t := by
  have hend (u : Text) : (Text.trimEnd u).Sublist u := by
    have hreverse := List.reverse_sublist.2 (List.dropWhile_sublist (l := u.reverse) isBlank)
    rwa [List.reverse_reverse] at hreverse
  exact (hend _).trans (List.dropWhile_sublist _)

theorem not_mem_trim {c : Char} (hc : c ∉ t) : c ∉ trim t := fun hmem => hc ((trim_sublist t).subset hmem)

theorem mem_trim {c : Char} (hmem : c ∈ t) (hc : isBlank c = false) : c ∈ trim t := by
  obtain ⟨before, after, rfl⟩ := List.append_of_mem hmem
  rw [trim, trimStart_append_cons hc, trimEnd_append_cons hc]
  exact List.mem_append_right _ List.mem_cons_self

theorem trimEnd_isPrefix (t : Text) : trimEnd t <+: t := by
  rw [trimEnd, ← List.reverse_suffix, List.reverse_reverse]
  exact List.dropWhile_suffix _

theorem trim_isInfix (t : Text) : trim t <:+: t :=
  (trimEnd_isPrefix _).isInfix.trans (List.dropWhile_suffix _).isInfix

/-- A text has nothing around what trimming leaves of it but white space. -/
theorem exists_eq_append_trim (t : Text) :
    ∃ before after, Blank before ∧ Blank after ∧ t = before ++ (trim t ++ after) := by
  have hblank (u : Text) : Blank (u.takeWhile isBlank) := List.all_eq_true.1 List.all_takeWhile
  have hend : trim t ++ ((trimStart t).reverse.takeWhile isBlank).reverse = trimStart t := by
    rw [trim, trimEnd, ← List.reverse_append, List.takeWhile_append_dropWhile, List.reverse_reverse]
  refine ⟨t.takeWhile isBlank, ((trimStart t).reverse.takeWhile isBlank).reverse, hblank t, ?_, ?_⟩
  · exact fun c hc => hblank _ c (List.mem_reverse.1 hc)
  · rw [hend, trimStart, List.takeWhile_append_dropWhile]

theorem StartsSolid.isInfix_trimStart (hs : StartsSolid s) (hwithin : s <:+: t) : s <:+: Text.trimStart t := by
  obtain ⟨c, rest, rfl, hc⟩ := hs
  obtain ⟨before, after, rfl⟩ := hwithin
  rw [List.append_assoc, List.cons_append, trimStart_append_cons hc]
  exact ⟨Text.trimStart before, after, by rw [List.append_assoc, List.cons_append]⟩

theorem EndsSolid.isInfix_trimEnd (hs : EndsSolid s) (hwithin : s <:+: t) : s <:+: Text.trimEnd t := by
  obtain ⟨front, c, rfl, hc⟩ := hs
  obtain ⟨before, after, rfl⟩ := hwithin
  rw [← List.append_assoc, List.append_assoc, List.singleton_append, trimEnd_append_cons hc]
  exact ⟨before, Text.trimEnd after, by simp⟩

theorem Solid.isInfix_trim_iff (hs : Solid s) : s <:+: Text.trim t ↔ s <:+: t :=
  ⟨fun hwithin => hwithin.trans (trim_isInfix t), fun hwithin => hs.ends.isInfix_trimEnd (hs.starts.isInfix_trimStart hwithin)⟩

theorem EndsSolid.trimStart_append (hs : EndsSolid s) (u : Text) : trimStart (s ++ u) = trimStart s ++ u := by
  obtain ⟨front, c, rfl, hc⟩ := hs
  rw [List.append_assoc, List.singleton_append, trimStart_append_cons hc, trimStart_append_cons hc,
    List.append_assoc, List.singleton_append]

theorem StartsSolid.trimEnd_append (ht : StartsSolid t) (u : Text) : trimEnd (u ++ t) = u ++ trimEnd t := by
  obtain ⟨c, rest, rfl, hc⟩ := ht
  have hend := trimEnd_append_cons hc [] rest
  rw [List.nil_append, List.nil_append] at hend
  rw [trimEnd_append_cons hc, hend]

theorem StartsSolid.trimStart (ht : StartsSolid t) : Text.trimStart t = t := by
  obtain ⟨c, rest, rfl, hc⟩ := ht
  exact trimStart_append_cons hc [] rest

theorem EndsSolid.trimEnd (hs : EndsSolid s) : Text.trimEnd s = s := by
  obtain ⟨front, c, rfl, hc⟩ := hs
  exact trimEnd_append_cons hc front []

theorem EndsSolid.trim (hs : EndsSolid s) : Text.trim s = Text.trimStart s := by
  obtain ⟨front, c, rfl, hc⟩ := hs
  rw [Text.trim, trimStart_append_cons hc]
  exact trimEnd_append_cons hc _ []

/-- What stands between two texts that are solid there is not touched. -/
theorem trim_between (hs : EndsSolid s) (ht : StartsSolid t) (fill : Text) :
    trim (s ++ (fill ++ t)) = trim s ++ (fill ++ trim t) := by
  rw [hs.trim, trim, hs.trimStart_append, trim, ht.trimStart, ← List.append_assoc, ht.trimEnd_append,
    List.append_assoc]

theorem Solid.trim (ht : Solid t) : Text.trim t = t := by
  rw [ht.ends.trim, ht.starts.trimStart]

/-- White space around a solid text is trimmed. -/
theorem Solid.trim_within (ht : Solid t) (hbefore : Blank before) (hafter : Blank after) :
    Text.trim (before ++ (t ++ after)) = t := by
  rw [trim_blank_append hbefore, Text.trim, ht.ends.trimStart_append, trimEnd_append_blank hafter,
    ht.starts.trimStart, ht.ends.trimEnd]

end Trimming

section Joining

variable {separator : Text}

theorem join_cons {rest : List Text} (hrest : rest ≠ []) (t : Text) :
    join separator (t :: rest) = t ++ separator ++ join separator rest := by
  obtain ⟨u, rest, rfl⟩ := List.exists_cons_of_ne_nil hrest
  rfl

theorem join_cons_eq_flatMap (t : Text) (rest : List Text) :
    join separator (t :: rest) = t ++ rest.flatMap (separator ++ ·) := by
  induction rest generalizing t with
  | nil => exact (List.append_nil t).symm
  | cons u rest ih =>
    rw [join_cons (List.cons_ne_nil u rest), ih, List.flatMap_cons, List.append_assoc, List.append_assoc]

/-- The trimmed lines of a text, with a space between any two. -/
def onOneLine (t : Text) : Text :=
  join [' '] ((lines t).map trim)

theorem linesFrom_ne_nil (ht : t ≠ []) (current : Text) : linesFrom current t ≠ [] := by
  induction t generalizing current with
  | nil => exact absurd rfl ht
  | cons c t ih =>
    rw [linesFrom]
    split
    · exact List.cons_ne_nil _ _
    · cases t with
      | nil => simp [linesFrom]
      | cons d t => exact ih (List.cons_ne_nil d t) (c :: current)

theorem lines_of_not_mem (ht : t ≠ []) (hline : '\n' ∉ t) : lines t = [t] := by
  have hlines := linesFrom_append hline [] []
  rw [List.append_nil, List.append_nil] at hlines
  rw [lines, hlines, linesFrom, List.isEmpty_reverse, if_neg (by simpa using ht), List.reverse_reverse]

theorem trim_dropReturn (line : Text) : trim (dropReturn line.reverse).reverse = trim line := by
  obtain rfl | ⟨front, c, rfl⟩ := List.eq_nil_or_concat line
  · rfl
  · rw [List.concat_eq_append, List.reverse_append]
    by_cases hc : c = '\r'
    · subst hc
      have hreturn : Blank ['\r'] := by decide
      rw [trim_append_blank hreturn]
      simp [dropReturn]
    · simp [dropReturn, hc]

theorem onOneLine_of_not_mem (hline : '\n' ∉ t) : onOneLine t = trim t := by
  cases t with
  | nil => rfl
  | cons c t =>
    rw [onOneLine, lines_of_not_mem (List.cons_ne_nil c t) hline]
    rfl

theorem onOneLine_append_feed (hs : '\n' ∉ s) (ht : t ≠ []) :
    onOneLine (s ++ '\n' :: t) = trim s ++ ' ' :: onOneLine t := by
  have hlines : lines (s ++ '\n' :: t) = (dropReturn s.reverse).reverse :: lines t := by
    rw [lines, linesFrom_append_feed hs, List.append_nil, lines]
  have hmore : (lines t).map trim ≠ [] := by
    rw [ne_eq, List.map_eq_nil_iff]
    exact linesFrom_ne_nil ht []
  rw [onOneLine, hlines, List.map_cons, trim_dropReturn, join_cons hmore, List.append_assoc, List.singleton_append,
    onOneLine]

theorem exists_append_feed (ht : StartsSolid t) (hfeed : '\n' ∈ t) :
    ∃ line rest, t = line ++ '\n' :: rest ∧ '\n' ∉ line ∧ StartsSolid line := by
  obtain ⟨line, rest, rfl, hline⟩ := List.eq_append_cons_of_mem hfeed
  refine ⟨line, rest, rfl, hline, ?_⟩
  obtain ⟨c, more, heq, hc⟩ := ht
  cases line with
  | nil =>
    obtain ⟨rfl, -⟩ := List.cons.inj heq
    exact absurd hc (by decide)
  | cons d line =>
    obtain ⟨rfl, -⟩ := List.cons.inj heq
    exact ⟨d, line, rfl, hc⟩

theorem StartsSolid.trim (ht : StartsSolid t) : StartsSolid (Text.trim t) := by
  rw [Text.trim, ht.trimStart]
  obtain ⟨c, rest, rfl, hc⟩ := ht
  have hend := trimEnd_append_cons hc [] rest
  rw [List.nil_append, List.nil_append] at hend
  exact ⟨c, Text.trimEnd rest, hend, hc⟩

theorem startsSolid_trimStart (hne : trimStart t ≠ []) : StartsSolid (trimStart t) := by
  obtain ⟨c, rest, heq⟩ := List.exists_cons_of_ne_nil hne
  have hhead := List.head?_dropWhile_not isBlank t
  rw [trimStart] at heq ⊢
  rw [heq] at hhead ⊢
  exact ⟨c, rest, rfl, hhead⟩

theorem endsSolid_trimEnd (hne : trimEnd t ≠ []) : EndsSolid (trimEnd t) := by
  obtain ⟨c, rest, heq, hc⟩ := startsSolid_trimStart (t := t.reverse) (mt List.reverse_eq_nil_iff.2 hne)
  refine ⟨rest.reverse, c, ?_, hc⟩
  rw [trimStart] at heq
  rw [trimEnd, heq, List.reverse_cons]

theorem isBlankText_iff : isBlankText t = true ↔ trimStart t = [] := by
  rw [isBlankText, List.all_eq_true, trimStart, List.dropWhile_eq_nil_iff]

theorem trim_eq_nil_iff : trim t = [] ↔ trimStart t = [] := by
  constructor
  · intro htrim
    by_contra hne
    obtain ⟨c, rest, hcons, hc⟩ := startsSolid_trimStart hne
    have hend := trimEnd_append_cons hc [] rest
    rw [trim, hcons] at htrim
    exact absurd (hend.symm.trans htrim) nofun
  · intro hstart
    rw [trim, hstart]
    rfl

/-- What is left when white space is trimmed is solid. -/
theorem solid_trim (hne : trim t ≠ []) : Solid (trim t) where
  starts := by
    have hsolid := startsSolid_trimStart (mt trim_eq_nil_iff.2 hne)
    have htrim : Text.trim (trimStart t) = trim t := by rw [trim, hsolid.trimStart, trim]
    rw [← htrim]
    exact hsolid.trim
  ends := endsSolid_trimEnd hne

/-- A text in front of a solid one that is solid at its end, with white space between them, belongs to the first
line. -/
theorem exists_lines_append (hs : EndsSolid s) (hline : '\n' ∉ s ++ fill) (ht : StartsSolid t) :
    ∃ first joined more, lines t = first :: more ∧ lines (s ++ (fill ++ t)) = joined :: more ∧
      StartsSolid (trim first) ∧ '\n' ∉ first ∧ trim joined = trim s ++ (fill ++ trim first) := by
  by_cases hfeed : '\n' ∈ t
  · obtain ⟨first, rest, rfl, hfirst, hstarts⟩ := exists_append_feed ht hfeed
    have hjoined : '\n' ∉ s ++ fill ++ first := by
      rw [List.mem_append, not_or]
      exact ⟨hline, hfirst⟩
    refine ⟨(dropReturn first.reverse).reverse, (dropReturn (s ++ fill ++ first).reverse).reverse, lines rest, ?_, ?_,
      ?_, ?_, ?_⟩
    · rw [lines, linesFrom_append_feed hfirst, List.append_nil]
    · rw [← List.append_assoc fill, ← List.append_assoc s, ← List.append_assoc s, lines, linesFrom_append_feed hjoined,
        List.append_nil]
    · rw [trim_dropReturn]
      exact hstarts.trim
    · rw [List.mem_reverse]
      exact fun hmem => hfirst (List.mem_reverse.1 ((dropReturn_suffix _).subset hmem))
    · rw [trim_dropReturn, trim_dropReturn, List.append_assoc, trim_between hs hstarts]
  · have hne : t ≠ [] := by
      obtain ⟨c, rest, rfl, -⟩ := ht
      exact List.cons_ne_nil c rest
    have hjoined : '\n' ∉ s ++ (fill ++ t) := by
      rw [← List.append_assoc, List.mem_append, not_or]
      exact ⟨hline, hfeed⟩
    refine ⟨t, s ++ (fill ++ t), [], lines_of_not_mem hne hfeed, lines_of_not_mem ?_ hjoined, ht.trim, hfeed,
      trim_between hs ht fill⟩
    exact List.append_ne_nil_of_left_ne_nil hs.ne_nil _

/-- White space at the beginning of a text leaves its line feeds, as spaces. -/
theorem onOneLine_blank_append (hbefore : Blank before) (ht : EndsSolid t) :
    onOneLine (before ++ t) = List.replicate (before.count '\n') ' ' ++ onOneLine t := by
  induction hfeeds : before.count '\n' generalizing before with
  | zero =>
    have hline : '\n' ∉ before := List.count_eq_zero.1 hfeeds
    rw [List.replicate_zero, List.nil_append]
    by_cases hfeed : '\n' ∈ t
    · obtain ⟨line, rest, rfl, hfirst⟩ := List.eq_append_cons_of_mem hfeed
      have hrest := (endsSolid_of_append_cons (by decide) ht).ne_nil
      have hjoined : '\n' ∉ before ++ line := by simp [hline, hfirst]
      rw [← List.append_assoc, onOneLine_append_feed hjoined hrest, onOneLine_append_feed hfirst hrest,
        trim_blank_append hbefore]
    · have hjoined : '\n' ∉ before ++ t := by simp [hline, hfeed]
      rw [onOneLine_of_not_mem hjoined, onOneLine_of_not_mem hfeed, trim_blank_append hbefore]
  | succ feeds ih =>
    have hmem : '\n' ∈ before := List.count_pos_iff.1 (by omega)
    obtain ⟨line, rest, rfl, hline⟩ := List.eq_append_cons_of_mem hmem
    have hblank : Blank line := fun c hc => hbefore c (List.mem_append_left _ hc)
    have hlater : Blank rest := fun c hc => hbefore c (List.mem_append_right _ (List.mem_cons_of_mem _ hc))
    have hcount : rest.count '\n' = feeds := by
      rw [List.count_append, List.count_eq_zero.2 hline, List.count_cons_self] at hfeeds
      omega
    rw [List.append_assoc, List.cons_append, onOneLine_append_feed hline (ht.append rest).ne_nil, trim_blank hblank,
      ih hlater hcount, List.replicate_succ, List.cons_append, List.nil_append]

/-- What is left of white space between two solid texts. -/
def oneLineFill (fill : Text) : Text :=
  if '\n' ∈ fill then List.replicate (fill.count '\n') ' ' else fill

theorem blank_oneLineFill (hfill : Blank fill) : Blank (oneLineFill fill) := by
  unfold oneLineFill
  split
  · intro c hc
    rw [List.eq_of_mem_replicate hc]
    decide
  · exact hfill

/-- Between two texts that are solid there, white space stays white space. -/
theorem onOneLine_between (hs : EndsSolid s) (hfill : Blank fill) (ht : Solid t) :
    onOneLine (s ++ (fill ++ t)) = onOneLine s ++ (oneLineFill fill ++ onOneLine t) := by
  induction hfeeds : s.count '\n' generalizing s with
  | zero =>
    have hline : '\n' ∉ s := List.count_eq_zero.1 hfeeds
    rw [onOneLine_of_not_mem hline, oneLineFill]
    by_cases hmem : '\n' ∈ fill
    · -- the line of `s` ends within the white space
      rw [if_pos hmem]
      obtain ⟨first, rest, rfl, hfirst⟩ := List.eq_append_cons_of_mem hmem
      have hblank : Blank first := fun c hc => hfill c (List.mem_append_left _ hc)
      have hlater : Blank rest := fun c hc => hfill c (List.mem_append_right _ (List.mem_cons_of_mem _ hc))
      have hjoined : '\n' ∉ s ++ first := by simp [hline, hfirst]
      have hcount : (first ++ '\n' :: rest).count '\n' = rest.count '\n' + 1 := by
        rw [List.count_append, List.count_eq_zero.2 hfirst, List.count_cons_self, Nat.zero_add]
      rw [List.append_assoc, List.cons_append, ← List.append_assoc,
        onOneLine_append_feed hjoined (ht.ends.append rest).ne_nil, trim_append_blank hblank,
        onOneLine_blank_append hlater ht.ends, hcount, List.replicate_succ, List.cons_append]
    · -- the line of `s` goes on with the first line of `t`
      rw [if_neg hmem]
      by_cases hfeed : '\n' ∈ t
      · obtain ⟨first, rest, rfl, hfirst, hstarts⟩ := exists_append_feed ht.starts hfeed
        have hrest := (endsSolid_of_append_cons (by decide) ht.ends).ne_nil
        have hjoined : '\n' ∉ s ++ (fill ++ first) := by simp [hline, hmem, hfirst]
        rw [← List.append_assoc fill, ← List.append_assoc s, onOneLine_append_feed hjoined hrest,
          onOneLine_append_feed hfirst hrest, trim_between hs hstarts]
        simp only [List.append_assoc]
      · have hjoined : '\n' ∉ s ++ (fill ++ t) := by simp [hline, hmem, hfeed]
        rw [onOneLine_of_not_mem hjoined, onOneLine_of_not_mem hfeed, trim_between hs ht.starts]
  | succ feeds ih =>
    have hmem : '\n' ∈ s := List.count_pos_iff.1 (by omega)
    obtain ⟨line, rest, rfl, hline⟩ := List.eq_append_cons_of_mem hmem
    have hrest := endsSolid_of_append_cons (by decide) hs
    have hcount : rest.count '\n' = feeds := by
      rw [List.count_append, List.count_eq_zero.2 hline, List.count_cons_self] at hfeeds
      omega
    have hjoined := List.append_ne_nil_of_left_ne_nil hrest.ne_nil (fill ++ t)
    rw [List.append_assoc, List.cons_append, onOneLine_append_feed hline hjoined,
      onOneLine_append_feed hline hrest.ne_nil, ih hrest hcount, List.append_assoc, List.cons_append]

theorem onOneLine_append (hs : EndsSolid s) (ht : Solid t) : onOneLine (s ++ t) = onOneLine s ++ onOneLine t :=
  onOneLine_between hs (List.forall_mem_nil _) ht

end Joining

end Text

end Outline
