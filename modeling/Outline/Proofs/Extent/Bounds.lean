import Outline.Grammar.Basic

namespace Outline

namespace BlockRules

/-- What every search promises of its answer for the lines `start` to `last`. -/
structure Admits (rules : BlockRules) (start last : Nat) (extent : Extent) : Prop where
  start_le_headerEnd : start ≤ extent.headerEnd
  headerEnd_le_last : extent.headerEnd ≤ extent.last
  last_le : extent.last ≤ last
  guess : extent.isDegraded = true →
    extent = rules.fallback start last extent.headerEnd extent.outcome

variable {rules : BlockRules} {start last headerEnd : Nat}

/-- An answer that is no guess needs only its three bounds. -/
theorem Admits.of_found {extent : Extent} (hfound : extent.isDegraded = false)
    (hstart : start ≤ extent.headerEnd) (hheader : extent.headerEnd ≤ extent.last)
    (hlast : extent.last ≤ last) : rules.Admits start last extent :=
  ⟨hstart, hheader, hlast, fun h => absurd h (by simp [hfound])⟩

theorem admits_single (hstart : start ≤ last) : rules.Admits start last (.single start) :=
  .of_found rfl (Nat.le_refl _) (Nat.le_refl _) hstart

/-- The guess stays within the lines searched. -/
theorem admits_fallback (outcome : Outcome) (hstart : start ≤ headerEnd) (hheader : headerEnd ≤ last) :
    rules.Admits start last (rules.fallback start last headerEnd outcome) := by
  refine ⟨hstart, ?_, ?_, fun _ => rfl⟩
  · exact Nat.le_max_right _ _
  · exact Nat.max_le.2 ⟨Nat.min_le_right _ _, hheader⟩

theorem admits_countToClose {opener closer : Char} {index iterations : Nat} {state : LexState}
    {depth : Int} {lines : List Text} (hstart : start ≤ headerEnd) (hheader : headerEnd < index)
    (hlines : index + lines.length = last + 1) :
    rules.Admits start last
      (rules.countToClose opener closer start headerEnd last index iterations state depth lines) := by
  induction lines generalizing index iterations state depth with
  | nil =>
    rw [List.length_nil] at hlines
    exact admits_fallback _ hstart (by omega)
  | cons line rest ih =>
    rw [List.length_cons] at hlines
    simp only [countToClose]
    split
    · exact admits_fallback _ hstart (by omega)
    · split
      · exact .of_found rfl hstart (by simp only; omega) (by simp only; omega)
      · exact ih (by omega) (by omega)

theorem admits_findOpener {opener closer : Char} {index iterations : Nat} {state : LexState}
    {parens : Int} {lines : List Text} (hstart : start ≤ last) (hindex : start ≤ index)
    (hlines : index + lines.length = last + 1) :
    rules.Admits start last
      (rules.findOpener opener closer start last index iterations state parens lines) := by
  induction lines generalizing index iterations state parens with
  | nil => exact admits_single hstart
  | cons line rest ih =>
    rw [List.length_cons] at hlines
    simp only [findOpener]
    split
    · exact .of_found rfl hindex (Nat.le_refl _) (by simp only; omega)
    · split
      · split
        · refine .of_found ?_ hindex (Nat.le_refl _) (by simp only; omega)
          by_cases hfirst : index = start <;> simp [hfirst, Extent.isDegraded]
        · exact admits_countToClose hindex (by omega) (by omega)
      · split
        · exact admits_single hstart
        · exact ih (by omega) (by omega)

/-- The head of an indented declaration ends inside the window, and the lines that are left follow it. -/
theorem indentHead_bounds (rules : BlockRules) (start index iterations : Nat) (state : LexState)
    (brackets : Int) {lines : List Text} (hlines : index + lines.length = last + 1) (hsome : lines ≠ []) :
    index ≤ (rules.indentHead start last index iterations state brackets lines).1 ∧
      (rules.indentHead start last index iterations state brackets lines).1 +
        (rules.indentHead start last index iterations state brackets lines).2.2.length = last := by
  induction lines generalizing index iterations state brackets with
  | nil => exact absurd rfl hsome
  | cons line rest ih =>
    rw [List.length_cons] at hlines
    simp only [indentHead]
    split
    · exact ⟨Nat.le_refl _, by simp only; omega⟩
    · next hgoes =>
      have hmore : rest ≠ [] := by
        rintro rfl
        simp only [Bool.or_eq_true, decide_eq_true_eq, not_or] at hgoes
        rw [List.length_nil] at hlines
        omega
      obtain ⟨hle, hleft⟩ := ih (index + 1) _ _ _ (by omega) hmore
      exact ⟨by omega, hleft⟩

theorem isDegraded_closeIndent (start headerEnd reached : Nat) :
    (closeIndent start headerEnd reached).isDegraded = false := by
  by_cases hfirst : reached = start <;> simp [closeIndent, hfirst, Extent.isDegraded]

theorem admits_indentBody {base index iterations reached : Nat} {state : LexState} {lines : List Text}
    (hstart : start ≤ headerEnd) (hheader : headerEnd ≤ reached) (hreached : reached < index)
    (hlines : index + lines.length = last + 1) :
    rules.Admits start last
      (rules.indentBody start headerEnd last base index iterations reached state lines) := by
  induction lines generalizing index iterations reached state with
  | nil =>
    rw [List.length_nil] at hlines
    have hreach : reached ≤ last := by omega
    exact .of_found (isDegraded_closeIndent _ _ _) hstart hheader hreach
  | cons line rest ih =>
    rw [List.length_cons] at hlines
    simp only [indentBody]
    split
    · exact admits_fallback _ hstart (by omega)
    · split
      · exact ih (by omega) (by omega) (by omega)
      · split
        · exact ih hheader (by omega) (by omega)
        · split
          · have hreach : reached ≤ last := by omega
            exact .of_found (isDegraded_closeIndent _ _ _) hstart hheader hreach
          · exact ih (by omega) (by omega) (by omega)

theorem admits_keywordBody {index iterations : Nat} {state : LexState} {depth brackets : Nat}
    {previous : Text} {lines : List Text} (hstart : start ≤ last) (hindex : start ≤ index)
    (hlines : index + lines.length = last + 1) :
    rules.Admits start last
      (rules.keywordBody start last index iterations state depth brackets previous lines) := by
  induction lines generalizing index iterations state depth brackets previous with
  | nil => exact admits_fallback _ (Nat.le_refl _) hstart
  | cons line rest ih =>
    rw [List.length_cons] at hlines
    simp only [keywordBody]
    split
    · exact admits_fallback _ (Nat.le_refl _) hstart
    · split
      · split
        · exact admits_single hstart
        · exact .of_found rfl (Nat.le_refl _) hindex (by simp only; omega)
      · exact ih (by omega) (by omega)

theorem admits_statementBody {index iterations : Nat} {state : LexState} {balance : Int}
    {lines : List Text} (hstart : start ≤ last) (hindex : start ≤ index)
    (hlines : index + lines.length = last + 1) :
    rules.Admits start last (rules.statementBody start last index iterations state balance lines) := by
  induction lines generalizing index iterations state balance with
  | nil => exact admits_fallback _ (Nat.le_refl _) hstart
  | cons line rest ih =>
    rw [List.length_cons] at hlines
    simp only [statementBody]
    split
    · exact admits_fallback _ (Nat.le_refl _) hstart
    · split
      · refine .of_found ?_ (Nat.le_refl _) hindex (by simp only; omega)
        by_cases hfirst : index = start <;> simp [hfirst, Extent.isDegraded]
      · exact ih (by omega) (by omega)

theorem admits_indentExtent {window : List Text} (hsome : window ≠ [])
    (hlines : start + window.length = last + 1) :
    rules.Admits start last (rules.indentExtent start window) := by
  have hlast : start + window.length - 1 = last := by omega
  simp only [indentExtent, hlast]
  obtain ⟨hle, hleft⟩ := indentHead_bounds rules start start 0 .code 0 hlines hsome
  refine admits_indentBody hle (Nat.le_refl _) (Nat.lt_succ_self _) ?_
  rw [Nat.add_right_comm]
  exact congrArg (· + 1) hleft

/-- The extent of a declaration with a body keeps its bounds in every style. -/
theorem admits_blockExtent {window : List Text} (hsome : window ≠ [])
    (hlines : start + window.length = last + 1) :
    rules.Admits start last (rules.blockExtent start window) := by
  have hpos := List.length_pos_iff.2 hsome
  have hlast : start + window.length - 1 = last := by omega
  simp only [blockExtent, List.isEmpty_iff, hsome, if_false]
  split
  · simp only [braceExtent, hlast]
    exact admits_findOpener (by omega) (Nat.le_refl _) hlines
  · exact admits_indentExtent hsome hlines
  · simp only [keywordExtent, hlast]
    exact admits_keywordBody (by omega) (Nat.le_refl _) hlines

end BlockRules

namespace Grammar

/-- The extent of a declaration lies within its window, whatever kind of body the rule gives it. -/
theorem admits_extent (grammar : Grammar) (limits : Limits) (body : Body) (index : Nat)
    {window : List Text} (hsome : window ≠ []) :
    (grammar.blockRules limits).Admits index (index + window.length - 1)
      (grammar.extent limits body index window) := by
  have hpos := List.length_pos_iff.2 hsome
  have hlines : index + window.length = index + window.length - 1 + 1 := by omega
  cases body with
  | block => exact BlockRules.admits_blockExtent hsome hlines
  | statement =>
    simp only [extent, BlockRules.statementExtent, List.isEmpty_iff, hsome, if_false]
    exact BlockRules.admits_statementBody (by omega) (Nat.le_refl _) hlines
  | line => exact BlockRules.admits_single (by omega)

theorem extent_bounds (grammar : Grammar) (limits : Limits) (body : Body) (index : Nat) (line : Text)
    (rest : List Text) :
    index ≤ (grammar.extent limits body index (line :: rest)).headerEnd ∧
      (grammar.extent limits body index (line :: rest)).headerEnd ≤
        (grammar.extent limits body index (line :: rest)).last ∧
      (grammar.extent limits body index (line :: rest)).last ≤ index + rest.length := by
  obtain ⟨hstart, hheader, hlast, _⟩ := grammar.admits_extent limits body index (List.cons_ne_nil line rest)
  rw [List.length_cons] at hlast
  exact ⟨hstart, hheader, by omega⟩

end Grammar

end Outline
