import Outline.Pattern.Match

namespace Outline

/-- How attributes look. -/
inductive AttributeStyle where
  /-- There are none. -/
  | absent
  /-- In brackets after a hash: `#[inline]`. -/
  | hash
  /-- After an at sign: `@override`. -/
  | atSign
  /-- In brackets: `[Serializable]`, `[[nodiscard]]`. -/
  | bracket
deriving DecidableEq, Repr

/-- The text up to the delimiter that brings the count of open pairs back to zero, and the rest. -/
def upToClose? (opener closer : Char) : (depth : Nat) → Text → Option (Text × Text)
  | _, [] => none
  | depth, c :: t =>
    if c = opener then (upToClose? opener closer (depth + 1) t).map fun parts => (c :: parts.1, parts.2)
    else if c = closer then
      if depth ≤ 1 then some ([c], t)
      else (upToClose? opener closer (depth - 1) t).map fun parts => (c :: parts.1, parts.2)
    else (upToClose? opener closer depth t).map fun parts => (c :: parts.1, parts.2)

/-- The two parts make up the text, and the first is not empty. -/
theorem upToClose?_spec {opener closer : Char} {depth : Nat} {t inner rest : Text}
    (h : upToClose? opener closer depth t = some (inner, rest)) : t = inner ++ rest ∧ inner ≠ [] := by
  induction t generalizing depth inner with
  | nil => simp [upToClose?] at h
  | cons c t ih =>
    have step : ∀ {d : Nat}, (upToClose? opener closer d t).map (fun parts => (c :: parts.1, parts.2)) =
        some (inner, rest) → c :: t = inner ++ rest ∧ inner ≠ [] := by
      intro d hd
      obtain ⟨parts, hparts, heq⟩ := Option.map_eq_some_iff.1 hd
      obtain ⟨rfl, rfl⟩ := Prod.mk.inj heq
      have := (@ih _ parts.1 hparts).1
      simp [this]
    simp only [upToClose?] at h
    split at h
    · exact step h
    · split at h
      · split at h
        · simp only [Option.some.injEq, Prod.mk.injEq] at h
          obtain ⟨rfl, rfl⟩ := h
          simp
        · exact step h
      · exact step h

/-- The complete attribute after a hash that opens a text: the white space before it, the attribute, and
the rest of the text. -/
def hashAttribute? (t : Text) : Option (Text × Text × Text) :=
  match Text.strip? ['#'] (Text.trimStart t) with
  | none => none
  | some opened =>
    if Text.startsWith ['['] opened then
      (upToClose? '[' ']' 0 opened).map fun parts => (Text.leadingBlank t, '#' :: parts.1, parts.2)
    else none

/-- The three parts make up the text. -/
theorem eq_of_hashAttribute?_eq_some {t gap mark rest : Text}
    (h : hashAttribute? t = some (gap, mark, rest)) :
    t = gap ++ mark ++ rest ∧ mark ≠ [] := by
  unfold hashAttribute? at h
  split at h
  · simp at h
  · next opened hopened =>
    split at h
    · obtain ⟨parts, hparts, heq⟩ := Option.map_eq_some_iff.1 h
      simp only [Prod.mk.injEq] at heq
      obtain ⟨rfl, rfl, rfl⟩ := heq
      have htrim := Text.strip?_eq_some_iff.1 hopened
      have hinner := (@upToClose?_spec _ _ _ _ parts.1 parts.2 hparts).1
      refine ⟨?_, by simp⟩
      calc t = Text.leadingBlank t ++ Text.trimStart t := (List.takeWhile_append_dropWhile).symm
        _ = Text.leadingBlank t ++ ('#' :: parts.1) ++ parts.2 := by rw [htrim, hinner]; simp
    · simp at h

/-- The complete attributes after a hash that open a text, each with the white space before it, and the
rest of the text. -/
def leadingHashAttributes (t : Text) : List (Text × Text) × Text :=
  match h : hashAttribute? t with
  | none => ([], t)
  | some (gap, mark, rest) =>
    have : rest.length < t.length := by
      obtain ⟨heq, hne⟩ := eq_of_hashAttribute?_eq_some h
      have := List.length_pos_iff.2 hne
      rw [heq]
      simp only [List.length_append]
      omega
    let later := leadingHashAttributes rest
    ((gap, mark) :: later.1, later.2)
termination_by t.length

/-- The balance of round and square brackets. Braces are left out, so that a body that opens after an
attribute is never taken for a part of it. -/
def bracketBalance (t : Text) : Int :=
  t.foldl (fun balance c =>
    if c = '(' || c = '[' then balance + 1 else if c = ')' || c = ']' then balance - 1 else balance) 0

/-- A text on one line: trimmed, with single spaces. -/
def normalizeText (t : Text) : Text :=
  Text.squeeze (Text.trim t)

/-- Adds following lines to an attribute while its brackets stay open; the result counts them. -/
def joinAttribute : Text → List Text → Text × Nat
  | text, [] => (text, 0)
  | text, line :: rest =>
    if bracketBalance text > 0 then
      let joined := joinAttribute (text ++ ' ' :: Text.trim line) rest
      (joined.1, joined.2 + 1)
    else (text, 0)

/-- How many lines after its first an attribute may take. -/
def maxAttributeLines : Nat := 20

namespace AttributeStyle

/-- Whether the brackets that open a text close with nothing but white space after them, or never. -/
def closingParenEndsLine (tail : Text) : Bool :=
  match upToClose? '(' ')' 0 tail with
  | some (_, rest) => Text.isBlankText rest
  | none => true

/-- Whether a line of code, given trimmed, is an attribute on a line of its own. -/
def startsAttribute (style : AttributeStyle) (trimmed : Text) : Bool :=
  match style with
  | .absent => false
  | .hash =>
    Text.startsWith ['#', '['] trimmed &&
      let rest := Text.trim (leadingHashAttributes trimmed).2
      rest.isEmpty || Text.startsWith ['#', '['] rest
  | .atSign =>
    match Text.strip? ['@'] trimmed with
    | none => false
    | some rest =>
      Text.startsWhere (fun c => isLetter c || c == '_') rest &&
        !Text.startsWith "interface".toList rest &&
        let tail := Text.trimStart (rest.dropWhile fun c => isNameChar c || c == '.')
        tail.isEmpty || (Text.startsWith ['('] tail && closingParenEndsLine tail)
  | .bracket =>
    Text.startsWith ['['] trimmed &&
      Text.startsWhere (fun c => isLetter c || c == '_') (trimmed.dropWhile (· == '[')) &&
      (Text.endsWith [']'] trimmed || bracketBalance trimmed > 0)

/-- The text of the attribute that opens on a line, and how many of the following lines it takes. -/
def collect (line : Text) (following : List Text) : Text × Nat :=
  let joined := joinAttribute (Text.trim line) (following.take maxAttributeLines)
  (normalizeText joined.1, joined.2)

/-- A line as the attributes that stand before other code on it, with the white space around them, and
that code. -/
def splitLeading (style : AttributeStyle) (line : Text) : Text × Text :=
  match style with
  | .hash =>
    match leadingHashAttributes line with
    | ([], _) => ([], line)
    | (attributes, rest) =>
      if Text.isBlankText rest then ([], line)
      else
        (attributes.flatMap (fun a => a.1 ++ a.2) ++ Text.leadingBlank rest, Text.trimStart rest)
  | _ => ([], line)

/-- An annotation on the line of a declaration. -/
def inlineAt : Pattern :=
  .item (.lit "@" ++ .one (.letter ||| .char '_') ++ .run0 (.word ||| .char '.') ++
    .opt (.lit "(" ++ .run0 (.except ")") ++ .lit ")"))

/-- An attribute in brackets on the line of a declaration. -/
def inlineBracket : Pattern :=
  .item (.lit "[" ++ .opt (.lit "[") ++ .one (.letter ||| .char '_') ++ .run0 (.except "]") ++
    .lit "]" ++ .opt (.lit "]"))

/-- The texts that a pattern finds. -/
def foundTexts (p : Pattern) (t : Text) : List Text :=
  (p.findAll t).filterMap fun found => found.text? .item

/-- Attributes written on the line of a declaration, before its name. -/
def inline (style : AttributeStyle) (head : Text) : List Text :=
  match style with
  | .absent => []
  | .hash => (leadingHashAttributes head).1.map fun a => normalizeText a.2
  | .atSign =>
    ((foundTexts inlineAt head).filter fun t => !Text.startsWith "@interface".toList t).map normalizeText
  | .bracket => (foundTexts inlineBracket head).map normalizeText

end AttributeStyle

/-- The words of a text that belong to a set, in order. -/
def wordsIn (set : List Text) (t : Text) : List Text :=
  (Text.splitWhere (fun c => !isNameChar c) t).filter set.contains

end Outline
