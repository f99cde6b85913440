import Outline.Path
import Outline.Proofs.Text.Edges

namespace Outline

theorem Text.join_cons_cons (separator t next : Text) (rest : List Text) :
    join separator (t :: next :: rest) = t ++ separator ++ join separator (next :: rest) := rfl

namespace Path

/-- No piece holds a slash. -/
theorem not_slash_mem_of_mem_splitWhere {t piece : Text} (hpiece : piece ∈ t.splitWhere (· == '/')) :
    '/' ∉ piece := by
  induction t generalizing piece with
  | nil =>
    obtain rfl := List.mem_singleton.1 hpiece
    exact List.not_mem_nil
  | cons c t ih =>
    by_cases hc : c = '/'
    · rw [Text.splitWhere, if_pos (by simpa using hc)] at hpiece
      rcases List.mem_cons.1 hpiece with rfl | hpiece
      · exact List.not_mem_nil
      · exact ih hpiece
    · rw [Text.splitWhere, if_neg (by simpa using hc)] at hpiece
      cases hrest : Text.splitWhere (· == '/') t with
      | nil =>
        rw [hrest] at hpiece
        obtain rfl := List.mem_singleton.1 hpiece
        simpa using Ne.symm hc
      | cons first rest =>
        rw [hrest] at hpiece ih
        rcases List.mem_cons.1 hpiece with rfl | hpiece
        · exact List.not_mem_cons_of_ne_of_not_mem (Ne.symm hc) (ih List.mem_cons_self)
        · exact ih (List.mem_cons_of_mem _ hpiece)

/-- A text without slashes is one piece. -/
theorem splitWhere_of_not_slash {t : Text} (hslash : '/' ∉ t) : t.splitWhere (· == '/') = [t] := by
  apply Text.splitWhere_of_forall
  intro c hc
  rw [beq_eq_false_iff_ne]
  rintro rfl
  exact hslash hc

/-- What stands before the first slash is the first piece. -/
theorem splitWhere_append_slash {name : Text} (hslash : '/' ∉ name) (t : Text) :
    (name ++ '/' :: t).splitWhere (· == '/') = name :: t.splitWhere (· == '/') := by
  induction name with
  | nil => rfl
  | cons c name ih =>
    obtain ⟨hc, hslash⟩ := not_or.1 fun hmem => hslash (List.mem_cons.2 hmem)
    have hpiece : (c == '/') = false := by simpa using Ne.symm hc
    rw [List.cons_append, Text.splitWhere, hpiece, ih hslash]
    rfl

/-- Names without slashes are the pieces of the text that they make up with slashes between them. -/
theorem splitWhere_join {name : Text} {rest : List Text} (hnames : ∀ piece ∈ name :: rest, '/' ∉ piece) :
    (Text.join ['/'] (name :: rest)).splitWhere (· == '/') = name :: rest := by
  induction rest generalizing name with
  | nil => exact splitWhere_of_not_slash (hnames name List.mem_cons_self)
  | cons next rest ih =>
    have hrest := ih fun piece hmem => hnames piece (List.mem_cons_of_mem _ hmem)
    rw [Text.join_cons_cons, List.append_assoc, List.singleton_append,
      splitWhere_append_slash (hnames name List.mem_cons_self), hrest]

/-- The path of a way of names below a directory. -/
def joinAll (directory : Text) (way : List Text) : Text :=
  way.foldl join directory

@[simp]
theorem joinAll_nil (directory : Text) : joinAll directory [] = directory := rfl

@[simp]
theorem joinAll_cons (directory name : Text) (way : List Text) :
    joinAll directory (name :: way) = joinAll (join directory name) way := rfl

/-- A directory with one slash behind it, if it had none. -/
def withSlash (directory : Text) : Text :=
  if directory.getLast? = some '/' then directory else directory ++ ['/']

theorem join_eq {directory : Text} (hdirectory : directory ≠ []) (name : Text) :
    join directory name = withSlash directory ++ name := by
  rw [join, if_neg hdirectory, withSlash]
  split
  · rfl
  · rw [List.append_assoc, List.singleton_append]

/-- Behind the slash of the directory the path of a way is its names with slashes between them. -/
theorem joinAll_cons_eq {directory name : Text} {way : List Text} (hdirectory : directory ≠ [])
    (hnames : ∀ piece ∈ name :: way, piece ≠ [] ∧ '/' ∉ piece) :
    joinAll directory (name :: way) = withSlash directory ++ Text.join ['/'] (name :: way) := by
  induction way generalizing directory name with
  | nil => exact join_eq hdirectory name
  | cons next way ih =>
    obtain ⟨hname, hslash⟩ := hnames name List.mem_cons_self
    have hlast : (withSlash directory ++ name).getLast? ≠ some '/' := by
      rw [List.getLast?_append, List.getLast?_eq_some_getLast hname, Option.some_or]
      exact fun hend => hslash (Option.some.inj hend ▸ List.getLast_mem hname)
    rw [joinAll_cons, join_eq hdirectory, ih (by simp [hname])
      fun piece hmem => hnames piece (List.mem_cons_of_mem _ hmem), Text.join_cons_cons]
    rw [withSlash, if_neg hlast, ← List.append_assoc, ← List.append_assoc]

theorem joinAll_cons_ne {directory name : Text} {way : List Text} (hdirectory : directory ≠ [])
    (hnames : ∀ piece ∈ name :: way, piece ≠ [] ∧ '/' ∉ piece) :
    joinAll directory (name :: way) ≠ directory := by
  have hname := List.length_pos_iff.2 (hnames name List.mem_cons_self).1
  have hslash : directory.length ≤ (withSlash directory).length := by
    unfold withSlash
    split <;> simp
  have hjoin : name.length ≤ (Text.join ['/'] (name :: way)).length := by
    cases way with
    | nil => exact Nat.le_refl _
    | cons next way => simp [Text.join_cons_cons]
  intro heq
  have hlength := congrArg List.length ((joinAll_cons_eq hdirectory hnames).symm.trans heq)
  rw [List.length_append] at hlength
  omega

/-- Two ways below one directory have different paths. -/
theorem joinAll_injective {directory : Text} (hdirectory : directory ≠ []) {way way' : List Text}
    (hway : ∀ name ∈ way, name ≠ [] ∧ '/' ∉ name) (hway' : ∀ name ∈ way', name ≠ [] ∧ '/' ∉ name)
    (heq : joinAll directory way = joinAll directory way') : way = way' := by
  cases way with
  | nil =>
    cases way' with
    | nil => rfl
    | cons name rest => exact absurd heq.symm (joinAll_cons_ne hdirectory hway')
  | cons name rest =>
    cases way' with
    | nil => exact absurd heq (joinAll_cons_ne hdirectory hway)
    | cons name' rest' =>
      rw [joinAll_cons_eq hdirectory hway, joinAll_cons_eq hdirectory hway'] at heq
      have hpieces := congrArg (Text.splitWhere (· == '/')) (List.append_cancel_left heq)
      rwa [splitWhere_join fun piece hmem => (hway piece hmem).2,
        splitWhere_join fun piece hmem => (hway' piece hmem).2] at hpieces

end Path

end Outline
