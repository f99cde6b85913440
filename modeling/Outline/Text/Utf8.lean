import Outline.Text.Basic

namespace Outline

/-- A text without the byte order mark that may open it. -/
def Text.dropOrderMark : Text → Text
  | '\uFEFF' :: rest => rest
  | t => t

namespace Utf8

/-- Whether a byte continues a character that an earlier byte began. -/
def isContinuation (b : UInt8) : Bool :=
  0x80 ≤ b && b ≤ 0xBF

/-- The six payload bits of a continuation byte. -/
def payload (b : UInt8) : Nat :=
  b.toNat % 64

/-- The character that opens the bytes, with the number of bytes it takes. -/
def decodeFirst? : List UInt8 → Option (Char × Nat)
  | [] => none
  | b :: rest =>
    if b < 0x80 then some (Char.ofNat b.toNat, 1)
    else if 0xC2 ≤ b && b ≤ 0xDF then
      match rest with
      | b₁ :: _ =>
        if isContinuation b₁ then some (Char.ofNat ((b.toNat - 0xC0) * 64 + payload b₁), 2) else none
      | _ => none
    else if 0xE0 ≤ b && b ≤ 0xEF then
      match rest with
      | b₁ :: b₂ :: _ =>
        let lower : UInt8 := if b = 0xE0 then 0xA0 else 0x80
        let upper : UInt8 := if b = 0xED then 0x9F else 0xBF
        if lower ≤ b₁ && b₁ ≤ upper && isContinuation b₂ then
          some (Char.ofNat ((b.toNat - 0xE0) * 4096 + payload b₁ * 64 + payload b₂), 3)
        else none
      | _ => none
    else if 0xF0 ≤ b && b ≤ 0xF4 then
      match rest with
      | b₁ :: b₂ :: b₃ :: _ =>
        let lower : UInt8 := if b = 0xF0 then 0x90 else 0x80
        let upper : UInt8 := if b = 0xF4 then 0x8F else 0xBF
        if lower ≤ b₁ && b₁ ≤ upper && isContinuation b₂ && isContinuation b₃ then
          some (Char.ofNat
            ((b.toNat - 0xF0) * 262144 + payload b₁ * 4096 + payload b₂ * 64 + payload b₃), 4)
        else none
      | _ => none
    else none

/-- Decodes bytes of which `valid` well-formed ones came before, skipping the `skip` bytes that
belong to the character just read. An error is the length of the longest well-formed opening part. -/
def decodeFrom (valid : Nat) : (skip : Nat) → List UInt8 → Except Nat Text
  | _, [] => .ok []
  | skip + 1, _ :: rest => decodeFrom valid skip rest
  | 0, b :: rest =>
    match decodeFirst? (b :: rest) with
    | some (c, size) => (decodeFrom (valid + size) (size - 1) rest).map (c :: ·)
    | none => .error valid

/-- Decodes a whole byte sequence. -/
def decode (bytes : List UInt8) : Except Nat Text :=
  decodeFrom 0 0 bytes

/-- The UTF-8 bytes of a text. -/
def encode (t : Text) : List UInt8 :=
  t.flatMap String.utf8EncodeChar

end Utf8

end Outline
