import Outline.Text.Char

namespace Outline

/-- A piece of text, character by character. -/
abbrev Text := List Char

namespace Text

/-- Length of the UTF-8 encoding. -/
def byteSize : Text → Nat
  | [] => 0
  | c :: rest => c.utf8Size + byteSize rest

@[simp]
theorem byteSize_nil : byteSize [] = 0 := rfl

@[simp]
theorem byteSize_cons (c : Char) (t : Text) : byteSize (c :: t) = c.utf8Size + byteSize t := rfl

@[simp]
theorem byteSize_append (s t : Text) : byteSize (s ++ t) = byteSize s + byteSize t := by
  induction s with
  | nil => simp
  | cons c s ih => simp [ih, Nat.add_assoc]

/-- The text without its leading white space. -/
def trimStart (t : Text) : Text :=
  t.dropWhile isBlank

/-- The text without its trailing white space. -/
def trimEnd (t : Text) : Text :=
  (t.reverse.dropWhile isBlank).reverse

/-- The text without white space at either end. -/
def trim (t : Text) : Text :=
  trimEnd (trimStart t)

theorem length_trimStart_le (t : Text) : (trimStart t).length ≤ t.length :=
  (List.dropWhile_sublist _).length_le

theorem length_trimEnd_le (t : Text) : (trimEnd t).length ≤ t.length := by
  have h : (t.reverse.dropWhile isBlank).length ≤ t.reverse.length := (List.dropWhile_sublist _).length_le
  simpa [trimEnd] using h

theorem length_trim_le (t : Text) : (trim t).length ≤ t.length :=
  Nat.le_trans (length_trimEnd_le _) (length_trimStart_le t)

/-- Whether the text holds nothing but white space. -/
def isBlankText (t : Text) : Bool :=
  t.all isBlank

/-- The white space that opens the text. -/
def leadingBlank (t : Text) : Text :=
  t.takeWhile isBlank

/-- What follows `opening` when the text starts with it. -/
def strip? : Text → Text → Option Text
  | [], t => some t
  | _ :: _, [] => none
  | c :: opening, d :: t => if c = d then strip? opening t else none

/-- Whether the text starts with `opening`. -/
def startsWith (opening t : Text) : Bool :=
  (strip? opening t).isSome

/-- Whether the text ends with `closing`. -/
def endsWith (closing t : Text) : Bool :=
  startsWith closing.reverse t.reverse

/-- Whether the first character exists and satisfies `p`. -/
def startsWhere (p : Char → Bool) : Text → Bool
  | [] => false
  | c :: _ => p c

theorem strip?_eq_some_iff {opening t rest : Text} :
    strip? opening t = some rest ↔ t = opening ++ rest := by
  induction opening generalizing t with
  | nil => simp [strip?, eq_comm]
  | cons c opening ih =>
    cases t with
    | nil => simp [strip?]
    | cons d t =>
      by_cases h : c = d
      · subst h; simp [strip?, ih]
      · simp [strip?, h, Ne.symm h]

/-- The text without any number of repetitions of `opening` at its start. -/
def stripAll (opening t : Text) : Text :=
  match h : strip? opening t with
  | none => t
  | some rest =>
    if hopening : opening = [] then t
    else
      have : rest.length < t.length := by
        have := List.length_pos_iff.2 hopening
        rw [strip?_eq_some_iff.1 h, List.length_append]
        omega
      stripAll opening rest
termination_by t.length

/-- The text without any number of repetitions of `closing` at its end. -/
def stripEndAll (closing t : Text) : Text :=
  (stripAll closing.reverse t.reverse).reverse

/-- The pieces between characters that satisfy `p`; there is one piece more than such characters. -/
def splitWhere (p : Char → Bool) : Text → List Text
  | [] => [[]]
  | c :: t =>
    if p c then [] :: splitWhere p t
    else
      match splitWhere p t with
      | [] => [[c]]
      | piece :: pieces => (c :: piece) :: pieces

/-- The words between white space. -/
def words (t : Text) : List Text :=
  (splitWhere isBlank t).filter fun word => !word.isEmpty

/-- The text around the first occurrence of `needle`: what stands before it and what follows. -/
def cut? (needle : Text) : Text → Option (Text × Text)
  | [] => (strip? needle []).map fun rest => ([], rest)
  | c :: t =>
    match strip? needle (c :: t) with
    | some rest => some ([], rest)
    | none => (cut? needle t).map fun parts => (c :: parts.1, parts.2)

/-- Whether `needle` occurs somewhere in the text. -/
def contains (needle t : Text) : Bool :=
  (cut? needle t).isSome

/-- A cut loses nothing: the parts around the needle make up the text. -/
theorem eq_of_cut?_eq_some {needle t before after : Text}
    (h : cut? needle t = some (before, after)) : t = before ++ needle ++ after := by
  induction t generalizing before with
  | nil =>
    simp only [cut?, Option.map_eq_some_iff, Prod.mk.injEq] at h
    obtain ⟨rest, hrest, rfl, rfl⟩ := h
    simpa using strip?_eq_some_iff.1 hrest
  | cons c t ih =>
    simp only [cut?] at h
    split at h
    · next rest hrest =>
      simp only [Option.some.injEq, Prod.mk.injEq] at h
      obtain ⟨rfl, rfl⟩ := h
      simpa using strip?_eq_some_iff.1 hrest
    · simp only [Option.map_eq_some_iff, Prod.mk.injEq] at h
      obtain ⟨parts, hparts, rfl, rfl⟩ := h
      have := ih hparts
      simp [this]

/-- The texts one after the other with `separator` between them. -/
def join (separator : Text) : List Text → Text
  | [] => []
  | [t] => t
  | t :: rest => t ++ separator ++ join separator rest

/-- `n` spaces. -/
def spaces (n : Nat) : Text :=
  List.replicate n ' '

/-- The text with every run of white space written as one space. -/
def squeeze : Text → Text
  | [] => []
  | c :: t =>
    if isBlank c then
      match t with
      | [] => [' ']
      | d :: _ => if isBlank d then squeeze t else ' ' :: squeeze t
    else c :: squeeze t

/-- Order of texts by code point, which is also the order of their UTF-8 bytes. -/
def le (s t : Text) : Bool :=
  match s, t with
  | [], _ => true
  | _ :: _, [] => false
  | c :: s, d :: t => if c.toNat < d.toNat then true else if d.toNat < c.toNat then false else le s t

end Text

end Outline
