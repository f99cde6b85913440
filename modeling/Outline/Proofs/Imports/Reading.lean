import Outline.Imports.Statements

namespace Outline

namespace Imports

section Steps

variable {σ : Type} {step : σ → Text → List Text × σ} {names : σ → List Text → List Text}

/-- What is remembered behind lines. -/
def stateAfter (step : σ → Text → List Text × σ) (state : σ) (lines : List Text) : σ :=
  lines.foldl (fun state line => (step state line).2) state

/-- The names that lines add. -/
def namesMet (step : σ → Text → List Text × σ) : σ → List Text → List Text
  | _, [] => []
  | state, line :: rest => (step state line).1 ++ namesMet step (step state line).2 rest

/-- The names are listed by a step for each line. -/
def ReadsBy (names : σ → List Text → List Text) (step : σ → Text → List Text × σ) : Prop :=
  ∀ state line rest, names state (line :: rest) = (step state line).1 ++ names (step state line).2 rest

theorem stateAfter_concat (step : σ → Text → List Text × σ) (state : σ) (front : List Text) (line : Text) :
    stateAfter step state (front ++ [line]) = (step (stateAfter step state front) line).2 :=
  List.foldl_append

/-- Lines behind others are read with what these leave. -/
theorem ReadsBy.append (hreads : ReadsBy names step) (state : σ) (front rest : List Text) :
    names state (front ++ rest) = namesMet step state front ++ names (stateAfter step state front) rest := by
  induction front generalizing state with
  | nil => rfl
  | cons line front ih =>
    rw [List.cons_append, hreads, ih, namesMet, List.append_assoc]
    rfl

end Steps

section Rust

/-- The names that a line adds, and the statement that is open behind it with the number of lines added to it. -/
def rustStep : Option (Text × Nat) → Text → List Text × Option (Text × Nat)
  | some (statement, added), line =>
    let joined := statement ++ ' ' :: Text.trim line
    if Text.contains [';'] joined || maxStatementLines ≤ added + 1 then (rustPaths joined, none)
    else ([], some (joined, added + 1))
  | none, line =>
    let trimmed := Text.trim line
    if Text.startsWith ['/', '/'] trimmed then ([], none)
    else
      match itemAtStart? rustExternCrate trimmed with
      | some name => ([name], none)
      | none =>
        match itemAtStart? rustUse trimmed with
        | some statement =>
          if Text.contains [';'] statement then (rustPaths statement, none) else ([], some (statement, 0))
        | none => ([], none)

theorem readsBy_rustStep : ReadsBy rustNames rustStep := by
  intro open? line rest
  cases open? with
  | some statement =>
    obtain ⟨statement, added⟩ := statement
    rw [rustNames, rustStep]
    split
    · rfl
    · rfl
  | none =>
    rw [rustNames, rustStep]
    split
    · rfl
    · cases itemAtStart? rustExternCrate (Text.trim line) with
      | some name => rfl
      | none =>
        cases itemAtStart? rustUse (Text.trim line) with
        | some statement =>
          cases hend : Text.contains [';'] statement with
          | true => simp only [hend, if_true]
          | false => simp only [hend, Bool.false_eq_true, if_false, List.nil_append]
        | none => rfl

/-- The statement that is open behind lines. -/
def openStatement? (lines : List Text) : Option (Text × Nat) :=
  stateAfter rustStep none lines

end Rust

section Python

/-- The names that a line adds, and the quotes of the string that is taken to be open behind it. -/
def pythonStep : Option Text → Text → List Text × Option Text
  | some quote, line => ([], if Text.contains quote (Text.trim line) then none else some quote)
  | none, line =>
    let trimmed := Text.trim line
    match openTripleQuote? trimmed with
    | some quote => ([], some quote)
    | none =>
      if Text.startsWith ['#'] trimmed then ([], none)
      else
        match itemAtStart? pythonFrom trimmed with
        | some name => ([name], none)
        | none =>
          match itemAtStart? pythonImport trimmed with
          | some list => (pythonModules list, none)
          | none => ([], none)

theorem readsBy_pythonStep : ReadsBy pythonNames pythonStep := by
  intro quote? line rest
  cases quote? with
  | some quote => rfl
  | none =>
    rw [pythonNames, pythonStep]
    cases openTripleQuote? (Text.trim line) with
    | some quote => rfl
    | none =>
      dsimp only
      split
      · rfl
      · cases itemAtStart? pythonFrom (Text.trim line) with
        | some name => rfl
        | none =>
          cases itemAtStart? pythonImport (Text.trim line) with
          | some list => rfl
          | none => rfl

/-- The quotes of the string that is taken to be open behind lines. -/
def openQuote? (lines : List Text) : Option Text :=
  stateAfter pythonStep none lines

end Python

end Imports

end Outline
