namespace Outline

/-- Inserts a word into an increasing list, unless it is there. -/
def insertWord (word : String) : List String → List String
  | [] => [word]
  | head :: rest =>
    if word < head then word :: head :: rest
    else if head < word then head :: insertWord word rest
    else head :: rest

theorem mem_insertWord {word x : String} {words : List String} :
    x ∈ insertWord word words ↔ x = word ∨ x ∈ words := by
  induction words with
  | nil => simp [insertWord]
  | cons head rest ih =>
    simp only [insertWord]
    split
    · simp
    · split
      · simp [ih, or_left_comm]
      · next h₁ h₂ =>
        have heq : word = head :=
          String.le_antisymm (String.not_lt.1 h₂) (String.not_lt.1 h₁)
        simp [heq]

theorem pairwise_insertWord {word : String} {words : List String}
    (h : words.Pairwise (· < ·)) : (insertWord word words).Pairwise (· < ·) := by
  induction words with
  | nil => simp [insertWord]
  | cons head rest ih =>
    rw [List.pairwise_cons] at h
    simp only [insertWord]
    split
    · next hlt =>
      refine List.pairwise_cons.2 ⟨fun x hx => ?_, List.pairwise_cons.2 h⟩
      rcases List.mem_cons.1 hx with rfl | hx
      · exact hlt
      · exact String.lt_trans hlt (h.1 x hx)
    · split
      · next hlt =>
        refine List.pairwise_cons.2 ⟨fun x hx => ?_, ih h.2⟩
        rcases mem_insertWord.1 hx with rfl | hx
        · exact hlt
        · exact h.1 x hx
      · exact List.pairwise_cons.2 h

/-- A finite set of modifier words. -/
structure Modifiers where
  /-- The words in increasing order. -/
  words : List String
  increasing : words.Pairwise (· < ·)
deriving DecidableEq

namespace Modifiers

/-- The set without words. -/
def empty : Modifiers :=
  ⟨[], .nil⟩

/-- Adds one word. -/
def insert (set : Modifiers) (word : String) : Modifiers :=
  ⟨insertWord word set.words, pairwise_insertWord set.increasing⟩

/-- Adds every word of a list. -/
def insertAll (set : Modifiers) (words : List String) : Modifiers :=
  words.foldl insert set

/-- The set of the words of a list. -/
def ofList (words : List String) : Modifiers :=
  empty.insertAll words

/-- The words of either set. -/
def union (set other : Modifiers) : Modifiers :=
  set.insertAll other.words

instance : Inhabited Modifiers := ⟨empty⟩

end Modifiers

end Outline
