import Mathlib.Data.List.Infix
import Outline.Proofs.Text.ByteOrder
import Outline.Text.Utf8

namespace Outline.Utf8

theorem isContinuation_iff {b : UInt8} : isContinuation b = true ↔ 0x80 ≤ b.toNat ∧ b.toNat ≤ 0xBF := by
  simp [isContinuation, UInt8.le_iff_toNat_le]

/-- The byte sequences that stand for one character, each with its code point. The bounds of a second byte exclude
what would fit into fewer bytes, the surrogates and what lies beyond the last character. -/
inductive Sequence : List UInt8 → Nat → Prop where
  | one {b : UInt8} (hb : b.toNat < 0x80) : Sequence [b] b.toNat
  | two {b b₁ : UInt8} (hb : 0xC2 ≤ b.toNat) (hb' : b.toNat ≤ 0xDF) (h₁ : isContinuation b₁ = true) :
      Sequence [b, b₁] ((b.toNat - 0xC0) * 64 + payload b₁)
  | three {b b₁ b₂ : UInt8} (hb : 0xE0 ≤ b.toNat) (hb' : b.toNat ≤ 0xEF) (h₁ : isContinuation b₁ = true)
      (hlower : b.toNat = 0xE0 → 0xA0 ≤ b₁.toNat) (hupper : b.toNat = 0xED → b₁.toNat ≤ 0x9F)
      (h₂ : isContinuation b₂ = true) :
      Sequence [b, b₁, b₂] ((b.toNat - 0xE0) * 4096 + payload b₁ * 64 + payload b₂)
  | four {b b₁ b₂ b₃ : UInt8} (hb : 0xF0 ≤ b.toNat) (hb' : b.toNat ≤ 0xF4) (h₁ : isContinuation b₁ = true)
      (hlower : b.toNat = 0xF0 → 0x90 ≤ b₁.toNat) (hupper : b.toNat = 0xF4 → b₁.toNat ≤ 0x8F)
      (h₂ : isContinuation b₂ = true) (h₃ : isContinuation b₃ = true) :
      Sequence [b, b₁, b₂, b₃]
        ((b.toNat - 0xF0) * 262144 + payload b₁ * 4096 + payload b₂ * 64 + payload b₃)

namespace Sequence

variable {bytes : List UInt8} {code : Nat}

theorem of_eq {code' : Nat} (h : Sequence bytes code) (heq : code = code') : Sequence bytes code' :=
  heq ▸ h

/-- A second byte within the bounds that the first one sets. -/
theorem within_bounds_iff (b b₁ first low other high : UInt8) (hlow : 0x80 ≤ low.toNat)
    (hhigh : high.toNat ≤ 0xBF) :
    (if b = first then low else 0x80) ≤ b₁ ∧ b₁ ≤ (if b = other then high else 0xBF) ↔
      isContinuation b₁ = true ∧ (b.toNat = first.toNat → low.toNat ≤ b₁.toNat) ∧
        (b.toNat = other.toNat → b₁.toNat ≤ high.toNat) := by
  rw [isContinuation_iff]
  simp only [← UInt8.toNat_inj, UInt8.le_iff_toNat_le]
  split <;> split <;> simp_all <;> omega

/-- A sequence is read as its character, whatever follows it. -/
theorem decodeFirst?_append (h : Sequence bytes code) (rest : List UInt8) :
    decodeFirst? (bytes ++ rest) = some (Char.ofNat code, bytes.length) := by
  cases h with
  | one hb => simp [decodeFirst?, UInt8.lt_iff_toNat_lt, hb]
  | @two b b₁ hb hb' h₁ =>
    have hone : ¬ b.toNat < 0x80 := by omega
    simp [decodeFirst?, UInt8.lt_iff_toNat_lt, UInt8.le_iff_toNat_le, hone, hb, hb', h₁]
  | @three b b₁ b₂ hb hb' h₁ hlower hupper h₂ =>
    have hone : ¬ b.toNat < 0x80 := by omega
    have htwo : ¬ b.toNat ≤ 0xDF := by omega
    have hbounds := (within_bounds_iff b b₁ 0xE0 0xA0 0xED 0x9F (by decide) (by decide)).2 ⟨h₁, hlower, hupper⟩
    -- the same bounds, as comparisons of bytes
    have hb : 0xE0 ≤ b := hb
    have hb' : b ≤ 0xEF := hb'
    have hone : ¬ b < 0x80 := hone
    have htwo : ¬ b ≤ 0xDF := htwo
    simp [decodeFirst?, hone, htwo, hb, hb', hbounds, h₂]
  | @four b b₁ b₂ b₃ hb hb' h₁ hlower hupper h₂ h₃ =>
    have hone : ¬ b.toNat < 0x80 := by omega
    have htwo : ¬ b.toNat ≤ 0xDF := by omega
    have hthree : ¬ b.toNat ≤ 0xEF := by omega
    have hbounds := (within_bounds_iff b b₁ 0xF0 0x90 0xF4 0x8F (by decide) (by decide)).2 ⟨h₁, hlower, hupper⟩
    have hb : 0xF0 ≤ b := hb
    have hb' : b ≤ 0xF4 := hb'
    have hone : ¬ b < 0x80 := hone
    have htwo : ¬ b ≤ 0xDF := htwo
    have hthree : ¬ b ≤ 0xEF := hthree
    simp [decodeFirst?, hone, htwo, hthree, hb, hb', hbounds, h₂, h₃]

/-- The character that opens bytes is that of a sequence. -/
theorem of_decodeFirst? {c : Char} {size : Nat} (h : decodeFirst? bytes = some (c, size)) :
    ∃ first rest code, bytes = first ++ rest ∧ Sequence first code ∧ c = Char.ofNat code ∧ size = first.length := by
  unfold decodeFirst? at h
  split at h
  · cases h
  next b rest =>
  split at h
  · next hb =>
    cases h
    exact ⟨[b], rest, _, rfl, .one (UInt8.lt_iff_toNat_lt.1 hb), rfl, rfl⟩
  split at h
  · next hb =>
    simp only [Bool.and_eq_true, decide_eq_true_eq] at hb
    obtain ⟨hb, hb'⟩ := hb
    split at h
    · next b₁ rest =>
      obtain ⟨h₁, hsome⟩ := Option.ite_none_right_eq_some.1 h
      cases hsome
      exact ⟨[b, b₁], rest, _, rfl, .two hb hb' h₁, rfl, rfl⟩
    · cases h
  split at h
  · next hb =>
    simp only [Bool.and_eq_true, decide_eq_true_eq] at hb
    obtain ⟨hb, hb'⟩ := hb
    split at h
    · next b₁ b₂ rest =>
      obtain ⟨htail, hsome⟩ := Option.ite_none_right_eq_some.1 h
      cases hsome
      simp only [Bool.and_eq_true, decide_eq_true_eq] at htail
      obtain ⟨hbounds, h₂⟩ := htail
      obtain ⟨h₁, hlower, hupper⟩ := (within_bounds_iff b b₁ 0xE0 0xA0 0xED 0x9F (by decide) (by decide)).1 hbounds
      exact ⟨[b, b₁, b₂], rest, _, rfl, .three hb hb' h₁ hlower hupper h₂, rfl, rfl⟩
    · cases h
  split at h
  · next hb =>
    simp only [Bool.and_eq_true, decide_eq_true_eq] at hb
    obtain ⟨hb, hb'⟩ := hb
    split at h
    · next b₁ b₂ b₃ rest =>
      obtain ⟨htail, hsome⟩ := Option.ite_none_right_eq_some.1 h
      cases hsome
      simp only [Bool.and_eq_true, decide_eq_true_eq] at htail
      obtain ⟨⟨hbounds, h₂⟩, h₃⟩ := htail
      obtain ⟨h₁, hlower, hupper⟩ := (within_bounds_iff b b₁ 0xF0 0x90 0xF4 0x8F (by decide) (by decide)).1 hbounds
      exact ⟨[b, b₁, b₂, b₃], rest, _, rfl, .four hb hb' h₁ hlower hupper h₂ h₃, rfl, rfl⟩
    · cases h
  · cases h

/-- The bytes of a character are a sequence for it. -/
theorem of_char (c : Char) : Sequence (String.utf8EncodeChar c) c.toNat := by
  have hcode : c.toNat < 0xD800 ∨ 0xDFFF < c.toNat ∧ c.toNat < 0x110000 := c.valid
  rw [utf8EncodeChar_eq, lead]
  generalize c.toNat = code at *
  have hbyte : ∀ n < 256, (UInt8.ofNat n).toNat = n := fun n hn => UInt8.toNat_ofNat_of_lt hn
  have hdigit : ∀ n, isContinuation (UInt8.ofNat (n % 64 + 128)) = true ∧
      payload (UInt8.ofNat (n % 64 + 128)) = n % 64 := by
    intro n
    rw [isContinuation_iff, payload, hbyte _ (by omega)]
    omega
  split
  · have hb := hbyte code (by omega)
    refine (one (b := UInt8.ofNat code) ?_).of_eq hb
    omega
  split
  · have hb := hbyte (code / 64 + 192) (by omega)
    simp only [continuation, Nat.reducePow, Nat.div_one]
    refine (two (b := UInt8.ofNat (code / 64 + 192)) ?_ ?_ (hdigit _).1).of_eq ?_
    · omega
    · omega
    · rw [hb, (hdigit _).2]
      omega
  split
  · have hb := hbyte (code / 4096 + 224) (by omega)
    have hb₁ := hbyte (code / 64 % 64 + 128) (by omega)
    simp only [continuation, Nat.reducePow, Nat.div_one]
    refine (three (b := UInt8.ofNat (code / 4096 + 224)) ?_ ?_ (hdigit _).1 ?_ ?_ (hdigit _).1).of_eq ?_
    · omega
    · omega
    · omega
    · omega
    · rw [hb, (hdigit _).2, (hdigit _).2]
      omega
  · have hb := hbyte (code / 262144 + 240) (by omega)
    have hb₁ := hbyte (code / 4096 % 64 + 128) (by omega)
    simp only [continuation, Nat.reducePow, Nat.div_one]
    refine (four (b := UInt8.ofNat (code / 262144 + 240)) ?_ ?_ (hdigit _).1 ?_ ?_ (hdigit _).1
      (hdigit _).1).of_eq ?_
    · omega
    · omega
    · omega
    · omega
    · rw [hb, (hdigit _).2, (hdigit _).2, (hdigit _).2]
      omega

/-- The bytes of a character by its code point. -/
theorem utf8EncodeChar_ofNat (hcode : code.isValidChar) :
    String.utf8EncodeChar (Char.ofNat code) = UInt8.ofNat (lead code).2 :: continuation code (lead code).1 := by
  have hofNat : (Char.ofNat code).toNat = code := by
    rw [Char.ofNat, dif_pos hcode]
    rfl
  rw [utf8EncodeChar_eq, hofNat]

/-- A sequence is the bytes of its character. -/
theorem eq_utf8EncodeChar (h : Sequence bytes code) : bytes = String.utf8EncodeChar (Char.ofNat code) := by
  have hbyte : ∀ (b : UInt8) (n : Nat), n = b.toNat → UInt8.ofNat n = b := by
    rintro b n rfl
    exact UInt8.ofNat_toNat
  cases h with
  | @one b hb =>
    rw [utf8EncodeChar_ofNat (.inl (by omega)), lead, if_pos (by omega), hbyte b _ rfl]
    rfl
  | @two b b₁ hb hb' h₁ =>
    rw [isContinuation_iff] at h₁
    unfold payload
    rw [utf8EncodeChar_ofNat (.inl (by omega)), lead, if_neg (by omega), if_pos (by omega)]
    simp only [continuation, Nat.reducePow, Nat.div_one]
    rw [hbyte b _ (by omega), hbyte b₁ _ (by omega)]
  | @three b b₁ b₂ hb hb' h₁ hlower hupper h₂ =>
    rw [isContinuation_iff] at h₁ h₂
    have hvalid : ((b.toNat - 0xE0) * 4096 + payload b₁ * 64 + payload b₂).isValidChar := by
      rw [Nat.isValidChar, payload, payload]
      omega
    rw [utf8EncodeChar_ofNat hvalid]
    unfold payload
    rw [lead, if_neg (by omega), if_neg (by omega), if_pos (by omega)]
    simp only [continuation, Nat.reducePow, Nat.div_one]
    rw [hbyte b _ (by omega), hbyte b₁ _ (by omega), hbyte b₂ _ (by omega)]
  | @four b b₁ b₂ b₃ hb hb' h₁ hlower hupper h₂ h₃ =>
    rw [isContinuation_iff] at h₁ h₂ h₃
    unfold payload
    rw [utf8EncodeChar_ofNat (.inr ⟨by omega, by omega⟩), lead, if_neg (by omega), if_neg (by omega),
      if_neg (by omega)]
    simp only [continuation, Nat.reducePow, Nat.div_one]
    rw [hbyte b _ (by omega), hbyte b₁ _ (by omega), hbyte b₂ _ (by omega), hbyte b₃ _ (by omega)]

end Sequence

section First

variable {bytes : List UInt8}

/-- The bytes of a character are read as it, whatever follows them. -/
theorem decodeFirst?_append (c : Char) (rest : List UInt8) :
    decodeFirst? (String.utf8EncodeChar c ++ rest) = some (c, (String.utf8EncodeChar c).length) := by
  rw [(Sequence.of_char c).decodeFirst?_append rest, Char.ofNat_toNat]

/-- A character is read where its bytes stand. -/
theorem eq_append_of_decodeFirst? {c : Char} {size : Nat} (h : decodeFirst? bytes = some (c, size)) :
    size = (String.utf8EncodeChar c).length ∧ ∃ rest, bytes = String.utf8EncodeChar c ++ rest := by
  obtain ⟨first, rest, code, rfl, hsequence, rfl, rfl⟩ := Sequence.of_decodeFirst? h
  rw [← hsequence.eq_utf8EncodeChar]
  exact ⟨rfl, rest, rfl⟩

end First

section Valid

variable {bytes rest : List UInt8} {n : Nat}

/-- Bytes that encode a text. -/
def Valid (bytes : List UInt8) : Prop :=
  ∃ t, encode t = bytes

/-- The first `n` bytes encode a text, and no more of them do. -/
structure IsLongestValid (bytes : List UInt8) (n : Nat) : Prop where
  le_length : n ≤ bytes.length
  valid : Valid (bytes.take n)
  longest : ∀ m ≤ bytes.length, Valid (bytes.take m) → m ≤ n

theorem encode_cons (c : Char) (t : Text) : encode (c :: t) = String.utf8EncodeChar c ++ encode t :=
  List.flatMap_cons

theorem valid_nil : Valid [] :=
  ⟨[], rfl⟩

/-- Behind a character bytes encode a text if they do so with it. -/
theorem valid_append_iff (c : Char) : Valid (String.utf8EncodeChar c ++ rest) ↔ Valid rest := by
  constructor
  · rintro ⟨t, ht⟩
    cases t with
    | nil =>
      rw [utf8EncodeChar_eq] at ht
      cases ht
    | cons d t =>
      rw [encode_cons] at ht
      -- both are read from the same bytes
      have hread := decodeFirst?_append d (encode t)
      rw [ht, decodeFirst?_append] at hread
      obtain rfl : c = d := (Prod.mk.inj (Option.some.inj hread)).1
      exact ⟨t, List.append_cancel_left ht⟩
  · rintro ⟨t, rfl⟩
    exact ⟨c :: t, encode_cons c t⟩

/-- Bytes that begin with no character encode no text, however many of them are taken. -/
theorem isLongestValid_zero (hnone : decodeFirst? bytes = none) : IsLongestValid bytes 0 where
  le_length := Nat.zero_le _
  valid := valid_nil
  longest m hm := by
    rintro ⟨t, ht⟩
    cases t with
    | nil =>
      have hlength := congrArg List.length ht
      rw [List.length_take, Nat.min_eq_left hm] at hlength
      exact Nat.le_of_eq hlength.symm
    | cons c t =>
      have hbytes := List.take_append_drop m bytes
      rw [← ht, encode_cons, List.append_assoc] at hbytes
      rw [← hbytes, decodeFirst?_append] at hnone
      cases hnone

theorem IsLongestValid.append (h : IsLongestValid rest n) (c : Char) :
    IsLongestValid (String.utf8EncodeChar c ++ rest) ((String.utf8EncodeChar c).length + n) where
  le_length := by
    rw [List.length_append]
    exact Nat.add_le_add_left h.le_length _
  valid := by
    rw [List.take_length_add_append]
    exact (valid_append_iff c).2 h.valid
  longest m hm hvalid := by
    rcases Nat.le_total m (String.utf8EncodeChar c).length with hle | hle
    · exact Nat.le_trans hle (Nat.le_add_right _ _)
    · obtain ⟨k, rfl⟩ := Nat.exists_eq_add_of_le hle
      rw [List.length_append] at hm
      rw [List.take_length_add_append, valid_append_iff] at hvalid
      have hk := h.longest k (by omega) hvalid
      omega

end Valid

section Decode

variable {bytes : List UInt8}

theorem decodeFrom_drop (valid skip : Nat) (bytes : List UInt8) :
    decodeFrom valid skip bytes = decodeFrom valid 0 (bytes.drop skip) := by
  induction skip generalizing bytes with
  | zero => rfl
  | succ skip ih =>
    cases bytes with
    | nil => simp [decodeFrom]
    | cons b bytes => rw [decodeFrom, ih, List.drop_succ_cons]

theorem decodeFrom_append (valid : Nat) (c : Char) (rest : List UInt8) :
    decodeFrom valid 0 (String.utf8EncodeChar c ++ rest) =
      (decodeFrom (valid + (String.utf8EncodeChar c).length) 0 rest).map (c :: ·) := by
  have hfirst := decodeFirst?_append c rest
  obtain ⟨b, bytes, hbytes⟩ : ∃ b bytes, String.utf8EncodeChar c = b :: bytes := ⟨_, _, utf8EncodeChar_eq c⟩
  rw [hbytes] at hfirst ⊢
  rw [List.cons_append] at hfirst ⊢
  rw [decodeFrom, hfirst]
  dsimp only
  rw [decodeFrom_drop _ _ (bytes ++ rest), List.length_cons, Nat.add_sub_cancel, List.drop_left]

/-- Decoding goes on as far as the bytes encode a text. -/
theorem decodeFrom_cases (valid : Nat) (bytes : List UInt8) :
    (∃ t, decodeFrom valid 0 bytes = .ok t ∧ encode t = bytes) ∨
      ∃ n, decodeFrom valid 0 bytes = .error (valid + n) ∧ ¬ Valid bytes ∧ IsLongestValid bytes n := by
  cases hfirst : decodeFirst? bytes with
  | none =>
    cases bytes with
    | nil => exact .inl ⟨[], by rw [decodeFrom], rfl⟩
    | cons b bytes =>
      have hlongest := isLongestValid_zero hfirst
      refine .inr ⟨0, ?_, ?_, hlongest⟩
      · rw [decodeFrom, hfirst]
        rfl
      · intro hvalid
        have hzero := hlongest.longest (b :: bytes).length (Nat.le_refl _) (by rwa [List.take_length])
        simp at hzero
  | some found =>
    obtain ⟨-, rest, rfl⟩ := eq_append_of_decodeFirst? hfirst
    have hshorter : rest.length < (String.utf8EncodeChar found.1 ++ rest).length := by
      rw [utf8EncodeChar_eq, List.cons_append, List.length_cons, List.length_append]
      omega
    rw [decodeFrom_append]
    obtain ⟨t, hdecoded, rfl⟩ | ⟨n, hdecoded, hinvalid, hlongest⟩ :=
      decodeFrom_cases (valid + (String.utf8EncodeChar found.1).length) rest
    · exact .inl ⟨found.1 :: t, by rw [hdecoded]; rfl, encode_cons _ _⟩
    · refine .inr ⟨(String.utf8EncodeChar found.1).length + n, ?_, mt (valid_append_iff _).1 hinvalid,
        hlongest.append found.1⟩
      rw [hdecoded, Nat.add_assoc]
      rfl
termination_by bytes.length

/-- Decoding gives the text that the bytes encode. -/
theorem decode_eq_ok_iff {t : Text} : decode bytes = .ok t ↔ encode t = bytes := by
  constructor
  · intro hdecoded
    obtain ⟨u, hok, hu⟩ | ⟨n, herror, -⟩ := decodeFrom_cases 0 bytes
    · obtain rfl := Except.ok.inj (hok.symm.trans hdecoded)
      exact hu
    · cases herror.symm.trans hdecoded
  · rintro rfl
    have hdecoded : ∀ valid, decodeFrom valid 0 (encode t) = .ok t := by
      induction t with
      | nil => exact fun valid => by rw [encode, List.flatMap_nil, decodeFrom]
      | cons c t ih =>
        intro valid
        rw [encode_cons, decodeFrom_append, ih]
        rfl
    exact hdecoded 0

/-- Decoding fails on bytes that encode no text, and tells how many of them do. -/
theorem decode_eq_error_iff {n : Nat} : decode bytes = .error n ↔ ¬ Valid bytes ∧ IsLongestValid bytes n := by
  obtain ⟨t, hok, ht⟩ | ⟨k, herror, hinvalid, hlongest⟩ := decodeFrom_cases 0 bytes
  · rw [decode, hok]
    exact ⟨fun hfailed => (nomatch hfailed), fun hinvalid => absurd ⟨t, ht⟩ hinvalid.1⟩
  · rw [decode, herror, Nat.zero_add]
    constructor
    · intro hfailed
      obtain rfl := Except.error.inj hfailed
      exact ⟨hinvalid, hlongest⟩
    · rintro ⟨-, hother⟩
      have hle := hlongest.longest n hother.le_length hother.valid
      have hge := hother.longest k hlongest.le_length hlongest.valid
      rw [Nat.le_antisymm hge hle]

/-- Some part of bytes that encode no text is the longest that does. -/
theorem exists_isLongestValid (hbytes : ¬ Valid bytes) : ∃ n, IsLongestValid bytes n := by
  obtain ⟨t, -, ht⟩ | ⟨n, -, -, hlongest⟩ := decodeFrom_cases 0 bytes
  · exact absurd ⟨t, ht⟩ hbytes
  · exact ⟨n, hlongest⟩

end Decode

end Outline.Utf8
