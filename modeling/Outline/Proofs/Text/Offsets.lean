import Outline.Text.Basic

namespace Outline.Text

variable {s t front rest part : Text} {offset first last : Nat}

/-- The parts of a text before and behind a byte offset, if a character ends there. -/
def cutAt? : (offset : Nat) → Text → Option (Text × Text)
  | 0, t => some ([], t)
  | _ + 1, [] => none
  | offset + 1, c :: t =>
    if c.utf8Size ≤ offset + 1 then
      (cutAt? (offset + 1 - c.utf8Size) t).map fun parts => (c :: parts.1, parts.2)
    else none

/-- The text from a byte offset on. -/
def from? (offset : Nat) (t : Text) : Option Text :=
  (cutAt? offset t).map Prod.snd

/-- The text between two byte offsets. -/
def slice? (first last : Nat) (t : Text) : Option Text :=
  if first ≤ last then (cutAt? last t).bind fun parts => from? first parts.1 else none

/-- The byte offset of the first place where a text occurs. -/
def offsetOf? (needle t : Text) : Option Nat :=
  (cut? needle t).map fun parts => byteSize parts.1

/-- The byte offset behind the first characters of a text, if there are as many. -/
def offsetBehind? (count : Nat) (t : Text) : Option Nat :=
  if count ≤ t.length then some (byteSize (t.take count)) else none

/-- A text can be cut behind each part from its front. -/
theorem cutAt?_append (s t : Text) : cutAt? (byteSize s) (s ++ t) = some (s, t) := by
  induction s with
  | nil => rw [byteSize_nil, cutAt?, List.nil_append]
  | cons c s ih =>
    have hsize := Char.utf8Size_pos c
    obtain ⟨size, hsome⟩ : ∃ size, byteSize (c :: s) = size + 1 := Nat.exists_eq_succ_of_ne_zero (by
      rw [byteSize_cons]
      omega)
    rw [byteSize_cons] at hsome
    have hrest : size + 1 - c.utf8Size = byteSize s := by omega
    rw [byteSize_cons, hsome, List.cons_append, cutAt?, if_pos (by omega), hrest, ih]
    rfl

/-- It can be cut nowhere else. -/
theorem eq_append_of_cutAt? (hcut : cutAt? offset t = some (s, rest)) : t = s ++ rest ∧ byteSize s = offset := by
  induction t generalizing offset s with
  | nil =>
    cases offset with
    | zero =>
      obtain ⟨rfl, rfl⟩ := Prod.mk.inj (Option.some.inj hcut)
      exact ⟨rfl, rfl⟩
    | succ offset => cases hcut
  | cons c t ih =>
    cases offset with
    | zero =>
      obtain ⟨rfl, rfl⟩ := Prod.mk.inj (Option.some.inj hcut)
      exact ⟨rfl, rfl⟩
    | succ offset =>
      rw [cutAt?] at hcut
      obtain ⟨hsize, hcut⟩ := Option.ite_none_right_eq_some.1 hcut
      obtain ⟨parts, hparts, heq⟩ := Option.map_eq_some_iff.1 hcut
      obtain ⟨rfl, rfl⟩ := Prod.mk.inj heq
      obtain ⟨rfl, hoffset⟩ := ih (show _ = some (parts.1, parts.2) from hparts)
      refine ⟨rfl, ?_⟩
      rw [byteSize_cons, hoffset]
      omega

/-- Behind its end it cannot be cut. -/
theorem le_byteSize_of_cutAt? (hcut : (cutAt? offset t).isSome = true) : offset ≤ byteSize t := by
  obtain ⟨parts, hparts⟩ := Option.isSome_iff_exists.1 hcut
  obtain ⟨rfl, rfl⟩ := eq_append_of_cutAt? (show _ = some (parts.1, parts.2) from hparts)
  rw [byteSize_append]
  exact Nat.le_add_right _ _

theorem from?_append (s t : Text) : from? (byteSize s) (s ++ t) = some t := by
  rw [from?, cutAt?_append, Option.map_some]

theorem slice?_append (s t u : Text) : slice? (byteSize s) (byteSize s + byteSize t) (s ++ t ++ u) = some t := by
  rw [slice?, if_pos (Nat.le_add_right _ _), ← byteSize_append, cutAt?_append, Option.bind_some, from?_append]

/-- What is cut out behind the front of a text is the beginning of the rest. -/
theorem slice?_append_eq_some_iff :
    slice? (byteSize front) last (front ++ rest) = some part ↔
      ∃ after, rest = part ++ after ∧ last = byteSize (front ++ part) := by
  constructor
  · intro hslice
    rw [slice?] at hslice
    obtain ⟨-, hslice⟩ := Option.ite_none_right_eq_some.1 hslice
    obtain ⟨⟨before, after⟩, hcut, hfrom⟩ := Option.bind_eq_some_iff.1 hslice
    obtain ⟨hwhole, rfl⟩ := eq_append_of_cutAt? hcut
    obtain ⟨⟨shared, tail⟩, hshared, rfl⟩ := Option.map_eq_some_iff.1 hfrom
    obtain ⟨rfl, hsize⟩ := eq_append_of_cutAt? hshared
    -- a text has one part of each size at its front
    have hfront : cutAt? (byteSize front) (front ++ rest) = some (shared, tail ++ after) := by
      rw [hwhole, List.append_assoc, ← hsize, cutAt?_append]
    rw [cutAt?_append, Option.some.injEq, Prod.mk.injEq] at hfront
    obtain ⟨rfl, rfl⟩ := hfront
    exact ⟨after, rfl, rfl⟩
  · rintro ⟨after, rfl, rfl⟩
    rw [byteSize_append, ← List.append_assoc, slice?_append]

theorem le_of_slice? (hslice : slice? first last t = some part) : first ≤ last := by
  rw [slice?] at hslice
  exact (Option.ite_none_right_eq_some.1 hslice).1

theorem byteSize_of_from? (hfrom : from? offset t = some rest) : byteSize t = offset + byteSize rest := by
  obtain ⟨⟨before, after⟩, hcut, rfl⟩ := Option.map_eq_some_iff.1 hfrom
  obtain ⟨rfl, rfl⟩ := eq_append_of_cutAt? hcut
  exact byteSize_append before after

theorem byteSize_leadingBlank_add (t : Text) :
    byteSize (leadingBlank t) + byteSize (trimStart t) = byteSize t := by
  rw [← byteSize_append]
  exact congrArg byteSize List.takeWhile_append_dropWhile

end Outline.Text
