import Mathlib.Algebra.Group.Nat.Defs
import Mathlib.Data.List.Lex
import Outline.Text.Utf8

namespace Outline

namespace Text

theorem le_cons_cons_iff {c d : Char} {s t : Text} :
    le (c :: s) (d :: t) = true ↔ c.toNat < d.toNat ∨ c.toNat = d.toNat ∧ le s t = true := by
  rw [le]
  split
  · next hlt => simp [hlt]
  · split
    · next hnot hlt => simp [hnot, Nat.ne_of_gt hlt]
    · next hnot hnot' => simp [Nat.le_antisymm (Nat.not_lt.1 hnot') (Nat.not_lt.1 hnot)]

theorem le_trans {s t u : Text} (hst : le s t = true) (htu : le t u = true) : le s u = true := by
  induction s generalizing t u with
  | nil => rfl
  | cons c s ih =>
    cases t with
    | nil => simp [le] at hst
    | cons d t =>
      cases u with
      | nil => simp [le] at htu
      | cons e u =>
        rw [le_cons_cons_iff] at hst htu ⊢
        rcases hst with hcd | ⟨hcd, hst⟩
        · exact .inl (by omega)
        · rcases htu with hde | ⟨hde, htu⟩
          · exact .inl (by omega)
          · exact .inr ⟨by omega, ih hst htu⟩

theorem le_total (s t : Text) : (le s t || le t s) = true := by
  rw [Bool.or_eq_true]
  induction s generalizing t with
  | nil => exact .inl rfl
  | cons c s ih =>
    cases t with
    | nil => exact .inr rfl
    | cons d t =>
      rw [le_cons_cons_iff, le_cons_cons_iff]
      rcases Nat.lt_trichotomy c.toNat d.toNat with hlt | heq | hlt
      · exact .inl (.inl hlt)
      · exact (ih t).imp (fun hle => .inr ⟨heq, hle⟩) fun hle => .inr ⟨heq.symm, hle⟩
      · exact .inr (.inl hlt)

end Text

namespace Utf8

theorem toNat_lt_of_char (c : Char) : c.toNat < 0x110000 := by
  have hvalid := c.valid
  simp only [UInt32.isValidChar, Nat.isValidChar] at hvalid
  change c.val.toNat < _
  omega

/-- How many bytes follow the first byte of a character, and the first byte. -/
def lead (code : Nat) : Nat × Nat :=
  if code ≤ 127 then (0, code)
  else if code ≤ 2047 then (1, code / 64 + 192)
  else if code ≤ 65535 then (2, code / 4096 + 224)
  else (3, code / 262144 + 240)

/-- The last `count` bytes of a character, each with one digit of its code point to the base 64. -/
def continuation (code : Nat) : (count : Nat) → List UInt8
  | 0 => []
  | count + 1 => UInt8.ofNat (code / 64 ^ count % 64 + 128) :: continuation code count

/-- A character is its first byte and the digits that follow. -/
theorem utf8EncodeChar_eq (c : Char) : String.utf8EncodeChar c =
    UInt8.ofNat (lead c.toNat).2 :: continuation c.toNat (lead c.toNat).1 := by
  have hmax : c.val.toNat < 0x110000 := toNat_lt_of_char c
  have htwo : c.val.toNat ≤ 2047 → c.val.toNat / 64 % 32 = c.val.toNat / 64 := fun h =>
    Nat.mod_eq_of_lt (by omega)
  have hthree : c.val.toNat ≤ 65535 → c.val.toNat / 4096 % 16 = c.val.toNat / 4096 := fun h =>
    Nat.mod_eq_of_lt (by omega)
  have hfour : c.val.toNat / 262144 % 8 = c.val.toNat / 262144 := Nat.mod_eq_of_lt (by omega)
  change _ = UInt8.ofNat (lead c.val.toNat).2 :: continuation c.val.toNat (lead c.val.toNat).1
  unfold String.utf8EncodeChar lead
  dsimp only
  split
  · rfl
  split
  · next h => rw [htwo h]; simp [continuation]
  split
  · next h => rw [hthree h]; simp [continuation]
  · rw [hfour]; simp [continuation]

theorem ofNat_cons_lt {a b : Nat} {s t : List UInt8} (hb : b < UInt8.size)
    (hlt : a < b ∨ a = b ∧ s < t) : UInt8.ofNat a :: s < UInt8.ofNat b :: t := by
  rw [List.cons_lt_cons_iff]
  rcases hlt with hlt | ⟨rfl, hlt⟩
  · exact .inl ((UInt8.ofNat_lt_iff_lt (Nat.lt_trans hlt hb) hb).2 hlt)
  · exact .inr ⟨rfl, hlt⟩

/-- Digits are compared from the first on. -/
theorem continuation_lt {v w count : Nat} (hlt : v % 64 ^ count < w % 64 ^ count) (s t : List UInt8) :
    continuation v count ++ s < continuation w count ++ t := by
  induction count with
  | zero => simp [Nat.mod_one] at hlt
  | succ count ih =>
    have hsplit : ∀ n, n % 64 ^ (count + 1) = 64 ^ count * (n / 64 ^ count % 64) + n % 64 ^ count := by
      intro n
      rw [Nat.pow_succ, Nat.mod_mul, Nat.add_comm]
    have hsmall : ∀ n, n % 64 ^ count < 64 ^ count := fun n => Nat.mod_lt _ (Nat.pow_pos (by decide))
    rw [hsplit v, hsplit w] at hlt
    refine ofNat_cons_lt ?_ ?_
    · have := Nat.mod_lt (w / 64 ^ count) (by decide : 0 < 64)
      change _ < 256
      omega
    · rcases Nat.lt_trichotomy (v / 64 ^ count % 64) (w / 64 ^ count % 64) with hdigit | hdigit | hdigit
      · exact .inl (by omega)
      · rw [hdigit] at hlt ⊢
        exact .inr ⟨rfl, ih (by omega)⟩
      · have hle := Nat.mul_le_mul_left (64 ^ count) (Nat.succ_le_of_lt hdigit)
        have := hsmall w
        rw [Nat.mul_succ] at hle
        omega

/-- The bytes of the smaller of two characters come first, whatever follows them. -/
theorem encodeChar_lt {c d : Char} (hlt : c.toNat < d.toNat) (s t : List UInt8) :
    String.utf8EncodeChar c ++ s < String.utf8EncodeChar d ++ t := by
  have hmax := toNat_lt_of_char d
  have hlead : (lead d.toNat).2 < UInt8.size ∧ ((lead c.toNat).2 < (lead d.toNat).2 ∨
      (lead c.toNat).2 = (lead d.toNat).2 ∧ (lead c.toNat).1 = (lead d.toNat).1 ∧
        c.toNat % 64 ^ (lead d.toNat).1 < d.toNat % 64 ^ (lead d.toNat).1) := by
    unfold lead
    change _ < 256 ∧ _
    split_ifs <;>
      simp only [true_and, Nat.reduceEqDiff, Nat.reducePow, false_and, and_false, or_false] <;> omega
  obtain ⟨hbyte, hlead⟩ := hlead
  rw [utf8EncodeChar_eq, utf8EncodeChar_eq, List.cons_append, List.cons_append]
  refine ofNat_cons_lt hbyte (hlead.imp_right ?_)
  rintro ⟨hfirst, hcount, hdigits⟩
  rw [hcount]
  exact ⟨hfirst, continuation_lt hdigits s t⟩

/-- The bytes of the earlier of two texts come first. -/
theorem encode_lt_of_le {s t : Text} (hle : Text.le s t = true) (hne : s ≠ t) : encode s < encode t := by
  induction s generalizing t with
  | nil =>
    cases t with
    | nil => exact absurd rfl hne
    | cons d t =>
      rw [encode, encode, List.flatMap_cons, utf8EncodeChar_eq]
      exact List.nil_lt_cons _ _
  | cons c s ih =>
    cases t with
    | nil => simp [Text.le] at hle
    | cons d t =>
      rw [encode, encode, List.flatMap_cons, List.flatMap_cons]
      rcases Text.le_cons_cons_iff.1 hle with hlt | ⟨hcode, hrest⟩
      · exact encodeChar_lt hlt _ _
      · obtain rfl : c = d := Char.ext (UInt32.toNat_inj.1 hcode)
        exact List.append_left_lt (ih hrest fun h => hne (congrArg _ h))

end Utf8

end Outline
