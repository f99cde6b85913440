import Outline.Proofs.Extent.Alike
import Outline.Proofs.Extent.Bounds

namespace Outline

namespace BlockRules

variable {rules : BlockRules} {opener closer : Char} {start headerEnd last index iterations iterations' : Nat}
  {state : LexState} {lines : List Text}

theorem not_exceeds_of_found {extent : Extent}
    (hfound : (if rules.exceeds start index iterations then rules.fallback start last headerEnd .ceilingHit
      else extent).isDegraded = false) : ¬ rules.exceeds start index iterations = true := by
  intro hexceeds
  rw [if_pos hexceeds] at hfound
  cases hfound

/-- How many steps were taken before does not matter to a count that comes to an end. -/
theorem countToClose_eq_of_found {depth : Int}
    (hfound :
      (rules.countToClose opener closer start headerEnd last index iterations state depth lines).isDegraded = false)
    (hfound' :
      (rules.countToClose opener closer start headerEnd last index iterations' state depth lines).isDegraded = false) :
    rules.countToClose opener closer start headerEnd last index iterations' state depth lines =
      rules.countToClose opener closer start headerEnd last index iterations state depth lines := by
  induction lines generalizing index iterations iterations' state depth with
  | nil => rfl
  | cons line rest ih =>
    rw [countToClose] at hfound hfound' ⊢
    have hroom := not_exceeds_of_found hfound
    have hroom' := not_exceeds_of_found hfound'
    rw [countToClose]
    rw [if_neg hroom] at hfound ⊢
    rw [if_neg hroom'] at hfound' ⊢
    dsimp only at hfound hfound' ⊢
    split
    · rfl
    · next hopen =>
      rw [if_neg hopen] at hfound hfound'
      exact ih hfound hfound'

section Lines

variable {line longer : Text} {rest : List Text}

/-- Lines that a search for the opening does not tell apart lead to the same extent if what follows them does. -/
theorem findOpener_cons_eq_of_found {parens : Int}
    (hrest : ∀ {index iterations iterations' : Nat} {state : LexState} {parens : Int},
      (rules.findOpener opener closer start last index iterations state parens rest).isDegraded = false →
      (rules.findOpener opener closer start last index iterations' state parens rest).isDegraded = false →
      rules.findOpener opener closer start last index iterations' state parens rest =
        rules.findOpener opener closer start last index iterations state parens rest)
    (hscan : (rules.lexicon.readLine state longer).codeText.foldl (HeadScan.step opener closer rules.terminator)
        ⟨parens, 0, false, false⟩ =
      (rules.lexicon.readLine state line).codeText.foldl (HeadScan.step opener closer rules.terminator)
        ⟨parens, 0, false, false⟩)
    (hstate : (rules.lexicon.readLine state longer).state = (rules.lexicon.readLine state line).state)
    (hcarries : carriesHead longer = carriesHead line)
    (hfound : (rules.findOpener opener closer start last index iterations state parens (line :: rest)).isDegraded =
      false)
    (hfound' : (rules.findOpener opener closer start last index iterations' state parens (longer :: rest)).isDegraded =
      false) :
    rules.findOpener opener closer start last index iterations' state parens (longer :: rest) =
      rules.findOpener opener closer start last index iterations state parens (line :: rest) := by
  have hcontinues (reached : LexState) (balance : Int) :
      headContinues opener reached balance longer rest = headContinues opener reached balance line rest := by
    rw [headContinues_eq, headContinues_eq, hcarries]
  simp only [findOpener, hscan, hstate, hcontinues] at hfound hfound' ⊢
  split
  · rfl
  · next hopen =>
    rw [if_neg hopen] at hfound hfound'
    split
    · next hopened =>
      rw [if_pos hopened] at hfound hfound'
      split
      · rfl
      · next hdepth =>
        rw [if_neg hdepth] at hfound hfound'
        exact countToClose_eq_of_found hfound hfound'
    · next hclosed =>
      rw [if_neg hclosed] at hfound hfound'
      split
      · rfl
      · next hgoes =>
        rw [if_neg hgoes] at hfound hfound'
        exact hrest hfound hfound'

theorem findOpener_eq_of_found {parens : Int}
    (hfound : (rules.findOpener opener closer start last index iterations state parens lines).isDegraded = false)
    (hfound' : (rules.findOpener opener closer start last index iterations' state parens lines).isDegraded = false) :
    rules.findOpener opener closer start last index iterations' state parens lines =
      rules.findOpener opener closer start last index iterations state parens lines := by
  induction lines generalizing index iterations iterations' state parens with
  | nil => rfl
  | cons line rest ih => exact findOpener_cons_eq_of_found ih rfl rfl rfl hfound hfound'

/-- Lines that a search for the end of a statement does not tell apart lead to the same extent if what follows them
does. Where a semicolon ends statements the text of a line does not matter. -/
theorem statementBody_cons_eq_of_found {balance : Int}
    (hrest : ∀ {index iterations iterations' : Nat} {state : LexState} {balance : Int},
      (rules.statementBody start last index iterations state balance rest).isDegraded = false →
      (rules.statementBody start last index iterations' state balance rest).isDegraded = false →
      rules.statementBody start last index iterations' state balance rest =
        rules.statementBody start last index iterations state balance rest)
    (hscan : (rules.lexicon.readLine state longer).codeText.foldl StatementScan.step ⟨balance, false⟩ =
      (rules.lexicon.readLine state line).codeText.foldl StatementScan.step ⟨balance, false⟩)
    (hstate : (rules.lexicon.readLine state longer).state = (rules.lexicon.readLine state line).state)
    (hends : rules.terminator = .semicolon ∨ continuesExpression longer = continuesExpression line)
    (hfound : (rules.statementBody start last index iterations state balance (line :: rest)).isDegraded = false)
    (hfound' : (rules.statementBody start last index iterations' state balance (longer :: rest)).isDegraded = false) :
    rules.statementBody start last index iterations' state balance (longer :: rest) =
      rules.statementBody start last index iterations state balance (line :: rest) := by
  have hlineEnds (scan : StatementScan) (reached : LexState) :
      (rules.terminator == .newline && scan.balance ≤ 0 && reached.inCode && !continuesExpression longer) =
        (rules.terminator == .newline && scan.balance ≤ 0 && reached.inCode && !continuesExpression line) := by
    rcases hends with hends | hends
    · rw [hends]
      rfl
    · rw [hends]
  rw [statementBody] at hfound hfound' ⊢
  have hroom := not_exceeds_of_found hfound
  have hroom' := not_exceeds_of_found hfound'
  rw [statementBody]
  rw [if_neg hroom] at hfound ⊢
  rw [if_neg hroom'] at hfound' ⊢
  simp only [hscan, hstate, hlineEnds] at hfound hfound' ⊢
  split
  · rfl
  · next hopen =>
    rw [if_neg hopen] at hfound hfound'
    exact hrest hfound hfound'

theorem statementBody_eq_of_found {balance : Int}
    (hfound : (rules.statementBody start last index iterations state balance lines).isDegraded = false)
    (hfound' : (rules.statementBody start last index iterations' state balance lines).isDegraded = false) :
    rules.statementBody start last index iterations' state balance lines =
      rules.statementBody start last index iterations state balance lines := by
  induction lines generalizing index iterations iterations' state balance with
  | nil => rfl
  | cons line rest ih => exact statementBody_cons_eq_of_found ih rfl rfl (.inr rfl) hfound hfound'

/-- The longer line is the line behind `front`: the reader delivers `front` first, and the ends of both lines carry on a
head alike. -/
structure StandsBehind (rules : BlockRules) (front line longer : Text) : Prop where
  code_eq : (rules.lexicon.readLine .code longer).codeText = front ++ (rules.lexicon.readLine .code line).codeText
  state_eq : (rules.lexicon.readLine .code longer).state = (rules.lexicon.readLine .code line).state
  carriesHead_eq : carriesHead longer = carriesHead line

variable {front : Text}

theorem blockExtent_eq_behind (hstyle : rules.style = .braces opener closer)
    (hbehind : rules.StandsBehind front line longer)
    (hfront : front.foldl (HeadScan.step opener closer rules.terminator) ⟨0, 0, false, false⟩ = ⟨0, 0, false, false⟩)
    (hfound : (rules.blockExtent start (line :: rest)).isDegraded = false)
    (hfound' : (rules.blockExtent start (longer :: rest)).isDegraded = false) :
    rules.blockExtent start (longer :: rest) = rules.blockExtent start (line :: rest) := by
  have hscan : (rules.lexicon.readLine .code longer).codeText.foldl (HeadScan.step opener closer rules.terminator)
        ⟨0, 0, false, false⟩ =
      (rules.lexicon.readLine .code line).codeText.foldl (HeadScan.step opener closer rules.terminator)
        ⟨0, 0, false, false⟩ := by
    rw [hbehind.code_eq, List.foldl_append, hfront]
  simp only [blockExtent, hstyle, braceExtent, List.isEmpty_cons, Bool.false_eq_true, if_false, List.length_cons]
    at hfound hfound' ⊢
  exact findOpener_cons_eq_of_found findOpener_eq_of_found hscan hbehind.state_eq hbehind.carriesHead_eq hfound hfound'

theorem statementExtent_eq_behind (hterminator : rules.terminator = .semicolon)
    (hbehind : rules.StandsBehind front line longer)
    (hfront : front.foldl StatementScan.step ⟨0, false⟩ = ⟨0, false⟩)
    (hfound : (rules.statementExtent start (line :: rest)).isDegraded = false)
    (hfound' : (rules.statementExtent start (longer :: rest)).isDegraded = false) :
    rules.statementExtent start (longer :: rest) = rules.statementExtent start (line :: rest) := by
  have hscan : (rules.lexicon.readLine .code longer).codeText.foldl StatementScan.step ⟨0, false⟩ =
      (rules.lexicon.readLine .code line).codeText.foldl StatementScan.step ⟨0, false⟩ := by
    rw [hbehind.code_eq, List.foldl_append, hfront]
  simp only [statementExtent, List.isEmpty_cons, Bool.false_eq_true, if_false, List.length_cons] at hfound hfound' ⊢
  exact statementBody_cons_eq_of_found statementBody_eq_of_found hscan hbehind.state_eq (.inl hterminator) hfound
    hfound'

end Lines

end BlockRules

namespace Grammar

/-- An extent that is found stays the same when code stands before the declaration that no search stops at. -/
theorem extent_eq_behind {grammar : Grammar} {limits : Limits} {front line longer : Text} {rest : List Text}
    (hstyle : grammar.style = .braces '{' '}') (hterminator : grammar.terminator = .semicolon)
    (hbehind : (grammar.blockRules limits).StandsBehind front line longer)
    (hblock : front.foldl (HeadScan.step '{' '}' .semicolon) ⟨0, 0, false, false⟩ = ⟨0, 0, false, false⟩)
    (hstatement : front.foldl StatementScan.step ⟨0, false⟩ = ⟨0, false⟩) (body : Body) (index : Nat)
    (hfound : (grammar.extent limits body index (line :: rest)).isDegraded = false)
    (hfound' : (grammar.extent limits body index (longer :: rest)).isDegraded = false) :
    grammar.extent limits body index (longer :: rest) = grammar.extent limits body index (line :: rest) := by
  cases body with
  | block =>
    refine BlockRules.blockExtent_eq_behind hstyle hbehind ?_ hfound hfound'
    change front.foldl (HeadScan.step '{' '}' grammar.terminator) ⟨0, 0, false, false⟩ = _
    rw [hterminator, hblock]
  | statement => exact BlockRules.statementExtent_eq_behind hterminator hbehind hstatement hfound hfound'
  | line => rfl

end Grammar

end Outline
