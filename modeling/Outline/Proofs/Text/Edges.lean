import Mathlib.Data.List.Infix
import Outline.Text.Basic

namespace Outline

namespace Text

variable {opening closing t : Text}

theorem startsWith_iff : startsWith opening t = true ↔ opening <+: t := by
  rw [startsWith, Option.isSome_iff_exists]
  simp only [strip?_eq_some_iff]
  exact exists_congr fun rest => eq_comm

theorem endsWith_iff : endsWith closing t = true ↔ closing <:+ t := by
  rw [endsWith, startsWith_iff, List.reverse_prefix]

theorem strip?_append (opening rest : Text) : strip? opening (opening ++ rest) = some rest :=
  strip?_eq_some_iff.2 rfl

theorem strip?_eq_none (hopening : ¬ opening <+: t) : strip? opening t = none := by
  rw [← Option.not_isSome_iff_eq_none]
  exact mt startsWith_iff.1 hopening

section Beyond

variable {shared old text : Text}

/-- What a text begins with ends before the first character that it does not hold. -/
theorem isPrefix_of_isPrefix_append {c : Char} (hc : c ∉ opening) (hopening : opening <+: shared ++ c :: text) :
    opening <+: shared := by
  rcases Nat.lt_or_ge shared.length opening.length with hlt | hle
  · have hshared : shared ++ [c] <+: shared ++ c :: text := (List.prefix_append_right_inj shared).2 ⟨text, rfl⟩
    have hlength : (shared ++ [c]).length ≤ opening.length := by
      rwa [List.length_append, List.length_singleton]
    have hlonger := List.prefix_of_prefix_length_le hshared hopening hlength
    exact absurd (hlonger.subset (List.mem_append_right _ (List.mem_singleton_self c))) hc
  · exact List.prefix_of_prefix_length_le hopening (List.prefix_append _ _) hle

/-- Behind `shared` a space may take the place of any text, as far as a beginning without spaces goes that ends
within `shared` if it is there. -/
theorem startsWith_swap (hopening : ' ' ∉ opening)
    (hwithin : startsWith opening (shared ++ old) = true → opening.length ≤ shared.length) :
    startsWith opening (shared ++ ' ' :: text) = startsWith opening (shared ++ old) := by
  rw [Bool.eq_iff_iff]
  constructor
  · intro hnew
    have hshared := isPrefix_of_isPrefix_append hopening (startsWith_iff.1 hnew)
    exact startsWith_iff.2 (hshared.trans (List.prefix_append _ _))
  · intro hold
    have hshared := List.prefix_of_prefix_length_le (startsWith_iff.1 hold) (List.prefix_append _ _) (hwithin hold)
    exact startsWith_iff.2 (hshared.trans (List.prefix_append _ _))

/-- What begins with a character that does not occur in the first part of a text is cut out of the second. -/
theorem cut?_append {c : Char} {needle : Text} (hc : c ∉ t) (rest : Text) :
    cut? (c :: needle) (t ++ rest) = (cut? (c :: needle) rest).map fun parts => (t ++ parts.1, parts.2) := by
  induction t with
  | nil => simp
  | cons d t ih =>
    obtain ⟨hne, hc⟩ := not_or.1 (mt List.mem_cons.2 hc)
    rw [List.cons_append, cut?, strip?, if_neg hne]
    simp only [ih hc, Option.map_map]
    rfl

theorem cut?_eq_none {c : Char} (hc : c ∉ t) (needle : Text) : cut? (c :: needle) t = none := by
  have hcut : cut? (c :: needle) (t ++ []) = none := cut?_append hc []
  rwa [List.append_nil] at hcut

theorem contains_eq_false {c : Char} (hc : c ∉ t) : contains [c] t = false := by
  rw [contains, cut?_eq_none hc]
  rfl

theorem cut?_append_cons {c : Char} (hc : c ∉ t) (rest : Text) : cut? [c] (t ++ c :: rest) = some (t, rest) := by
  have hhere : cut? [c] (c :: rest) = some ([], rest) := by
    rw [cut?, strip?, if_pos rfl, strip?]
  rw [cut?_append hc, hhere]
  simp

theorem contains_iff {needle : Text} : contains needle t = true ↔ needle <:+: t := by
  rw [contains]
  constructor
  · intro hsome
    obtain ⟨⟨before, after⟩, hcut⟩ := Option.isSome_iff_exists.1 hsome
    exact ⟨before, after, (eq_of_cut?_eq_some hcut).symm⟩
  · intro hwithin
    induction t with
    | nil =>
      obtain rfl := List.eq_nil_of_infix_nil hwithin
      rfl
    | cons c t ih =>
      rw [cut?]
      cases hstrip : strip? needle (c :: t) with
      | some rest => rfl
      | none =>
        have hnot : ¬ needle <+: c :: t := fun hstarts => by
          have hsome := startsWith_iff.2 hstarts
          rw [startsWith, hstrip] at hsome
          contradiction
        rw [Option.isSome_map]
        exact ih ((List.infix_cons_iff.1 hwithin).resolve_left hnot)

theorem contains_iff_mem {c : Char} : contains [c] t = true ↔ c ∈ t :=
  contains_iff.trans (List.singleton_infix_iff c t)

/-- Where no character divides a text it is one piece. -/
theorem splitWhere_of_forall {p : Char → Bool} (ht : ∀ c ∈ t, p c = false) : splitWhere p t = [t] := by
  induction t with
  | nil => rfl
  | cons c t ih =>
    obtain ⟨hc, ht⟩ := List.forall_mem_cons.1 ht
    rw [splitWhere, hc, ih ht]
    rfl

/-- What is stripped from the start of a text is repetitions of its beginning. -/
theorem exists_eq_append_stripAll (opening t : Text) :
    ∃ n, t = (List.replicate n opening).flatten ++ stripAll opening t := by
  fun_induction stripAll opening t with
  | case1 t _ => exact ⟨0, rfl⟩
  | case2 t _ _ => exact ⟨0, rfl⟩
  | case3 t rest hstrip _ _ ih =>
    obtain ⟨n, hrest⟩ := ih
    refine ⟨n + 1, ?_⟩
    rw [List.replicate_succ, List.flatten_cons, List.append_assoc, ← hrest]
    exact strip?_eq_some_iff.1 hstrip

theorem stripAll_isSuffix (opening t : Text) : stripAll opening t <:+ t := by
  obtain ⟨n, ht⟩ := exists_eq_append_stripAll opening t
  exact ⟨_, ht.symm⟩

theorem mem_stripAll {c : Char} (hmem : c ∈ t) (hc : c ∉ opening) : c ∈ stripAll opening t := by
  obtain ⟨n, ht⟩ := exists_eq_append_stripAll opening t
  rw [ht, List.mem_append] at hmem
  refine hmem.resolve_left fun hfront => ?_
  obtain ⟨part, hpart, hmem⟩ := List.mem_flatten.1 hfront
  exact hc (List.eq_of_mem_replicate hpart ▸ hmem)

end Beyond

section Across

variable {c : Char}

/-- A beginning ends before the first character that it does not hold. -/
theorem strip?_append_cons (hc : c ∉ opening) (t rest : Text) :
    strip? opening (t ++ c :: rest) = (strip? opening t).map (· ++ c :: rest) := by
  induction opening generalizing t with
  | nil => rfl
  | cons d opening ih =>
    obtain ⟨hne, hc⟩ := not_or.1 (mt List.mem_cons.2 hc)
    cases t with
    | nil => rw [List.nil_append, strip?, strip?, if_neg (Ne.symm hne), Option.map_none]
    | cons e t =>
      rw [List.cons_append, strip?, strip?]
      split
      · exact ih hc t
      · rfl

/-- An end begins after the last character that it does not hold. -/
theorem endsWith_append_cons (hc : c ∉ closing) (t rest : Text) :
    endsWith closing (t ++ c :: rest) = endsWith closing rest := by
  have hreverse : c ∉ closing.reverse := mt List.mem_reverse.1 hc
  rw [endsWith, endsWith, startsWith, startsWith, List.reverse_append, List.reverse_cons, List.append_assoc,
    List.singleton_append, strip?_append_cons hreverse, Option.isSome_map]

theorem trimStart_append_cons (hc : isBlank c = false) (t rest : Text) :
    trimStart (t ++ c :: rest) = trimStart t ++ c :: rest := by
  rw [trimStart, trimStart, List.dropWhile_append]
  cases hleft : t.dropWhile isBlank with
  | nil => rw [List.isEmpty_nil, if_pos rfl, List.dropWhile_cons_of_neg (by simp [hc]), List.nil_append]
  | cons d left => rw [List.isEmpty_cons, if_neg Bool.false_ne_true]

theorem trimEnd_append_cons (hc : isBlank c = false) (t rest : Text) :
    trimEnd (t ++ c :: rest) = t ++ c :: trimEnd rest := by
  have hstart := trimStart_append_cons hc rest.reverse t.reverse
  rw [trimStart, trimStart] at hstart
  rw [trimEnd, trimEnd, List.reverse_append, List.reverse_cons, List.append_assoc, List.singleton_append, hstart]
  simp

end Across

end Text

end Outline
