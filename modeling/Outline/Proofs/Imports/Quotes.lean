import Outline.Imports
import Outline.Proofs.Imports.Reading
import Outline.Proofs.Lexing.RawLiterals
import Outline.Proofs.Pattern.Preferred

namespace Outline

namespace Imports

open Text Grammar

/-- The quotes between which a string may span lines. -/
def tripleQuotes : List Text :=
  [['\'', '\'', '\''], ['"', '"', '"']]

/-- The line begins with the quotes, and they do not stand in it again. -/
def OpensWith (quote line : Text) : Prop :=
  ∃ rest, trim line = quote ++ rest ∧ ¬ quote <:+: rest

/-- The line leaves a string open that cannot be told from its front: it begins in code, but not with the quotes of that
string, or it begins in a string and has the quotes of this one in it. -/
def Misleads (state : LexState) (line : Text) : Prop :=
  (pythonLexicon.readLine state line).state ≠ .code ∧
    ((state = .code ∧ ∀ quote ∈ tripleQuotes, ¬ OpensWith quote line) ∨
      ∃ quote, state = .literal quote true true ∧ quote <:+: line)

/-- The line imports one module, whose name is made of letters, digits and dots. -/
structure ImportsModule (line name : Text) : Prop where
  line_eq : trim line = "import ".toList ++ name
  ne_nil : name ≠ []
  dotted : ∀ c ∈ name, isWordChar c = true ∨ c = '.'

/-- Behind other lines the line adds the name and nothing else. -/
def Contributes (front : List Text) (line name : Text) : Prop :=
  pythonNames none (front ++ [line]) = pythonNames none front ++ [name]

/-- Wherever a line that imports a module stands between the lines of the text, the module is found just where a reader
of the language who has read the lines before is in code. -/
def HeedsStrings (t : Text) : Prop :=
  ∀ index ≤ (lines t).length, ∀ line name, ImportsModule line name →
    (Contributes ((lines t).take index) line name ↔ pythonLexicon.stateAt (lines t) index = .code)

section Modules

variable {line name : Text} {front : List Text}

theorem ImportsModule.not_mem (himports : ImportsModule line name) {c : Char} (hword : isWordChar c = false)
    (hdot : c ≠ '.') : c ∉ name := by
  intro hmem
  rcases himports.dotted c hmem with hc | hc
  · rw [hc] at hword
    contradiction
  · exact hdot hc

theorem ImportsModule.not_blank (himports : ImportsModule line name) {c : Char} (hmem : c ∈ name) :
    isBlank c = false := by
  rcases himports.dotted c hmem with hc | rfl
  · exact not_blank_of_isWordChar hc
  · decide

theorem ImportsModule.solid (himports : ImportsModule line name) : Solid name :=
  solid_of_forall himports.ne_nil fun _ => himports.not_blank

/-- The name is all that follows the first word. -/
theorem ImportsModule.itemAtStart? (himports : ImportsModule line name) :
    itemAtStart? pythonImport ("import ".toList ++ name) = some name := by
  obtain ⟨c, more, hname⟩ := List.exists_cons_of_ne_nil himports.ne_nil
  obtain ⟨behind, hbehind⟩ : ∃ behind, behind = (Cursor.start ("import ".toList ++ name)).skip "import ".toList name :=
    ⟨_, rfl⟩
  have hword : Pattern.Prefers (.word "import") (.start ("import ".toList ++ name)) behind :=
    hbehind ▸ Pattern.prefers_word rfl himports.solid.starts
  have hany : ∀ d ∈ c :: more, CharClass.any.contains d = true := by
    intro d hd
    have hne : d ≠ '\n' := by
      rintro rfl
      exact himports.not_mem (by decide) (by decide) (hname ▸ hd)
    simpa [CharClass.any, CharClass.contains] using hne
  have hitem : Pattern.Prefers (.run1 .any) behind (behind.skip (c :: more) []) := by
    apply Pattern.prefers_run1 _ hany (by simp)
    rw [hbehind, hname, List.append_nil]
    rfl
  have hmatch : pythonImport.matchStart? ("import ".toList ++ name) = _ :=
    (hword.seq hitem.group).seq (Pattern.prefers_assert rfl)
  rw [Imports.itemAtStart?, hmatch, hname]
  exact Pattern.text?_remember_skip .item behind (c :: more) []

/-- A list of one module has its name and nothing else. -/
theorem ImportsModule.pythonModules_eq (himports : ImportsModule line name) : pythonModules name = [name] := by
  have hbracket : ∀ c ∈ name, (c == '(' || c == ')') = false := by
    intro c hc
    rw [Bool.or_eq_false_iff, beq_eq_false_iff_ne, beq_eq_false_iff_ne]
    constructor
    · rintro rfl
      exact himports.not_mem (by decide) (by decide) hc
    · rintro rfl
      exact himports.not_mem (by decide) (by decide) hc
  have hcomment : upTo ['#'] name = name := by
    rw [upTo, cut?_eq_none (himports.not_mem (by decide) (by decide))]
    rfl
  have hentries : splitWhere (· == ',') name = [name] := by
    apply splitWhere_of_forall
    intro c hc
    rw [beq_eq_false_iff_ne]
    rintro rfl
    exact himports.not_mem (by decide) (by decide) hc
  have hwords : words name = [name] := by
    rw [words, splitWhere_of_forall fun c => himports.not_blank]
    simpa using himports.ne_nil
  obtain ⟨c, more, hstarts, -⟩ := himports.solid.starts
  obtain ⟨front, d, hends, -⟩ := himports.solid.ends
  have hfirst : name.dropWhile (fun c => c == '(' || c == ')') = name := by
    have hc := hbracket c (hstarts ▸ List.mem_cons_self)
    rw [hstarts, List.dropWhile_cons_of_neg (by simp [hc])]
  have hlast : name.reverse.dropWhile (fun c => c == '(' || c == ')') = name.reverse := by
    have hd := hbracket d (hends ▸ List.mem_append_right _ (List.mem_singleton_self d))
    rw [hends, List.reverse_append, List.reverse_singleton, List.singleton_append,
      List.dropWhile_cons_of_neg (by simp [hd])]
  rw [pythonModules, hcomment, hentries, List.map_singleton, hwords]
  simp only [List.headD_cons, hfirst, hlast, List.reverse_reverse]

theorem itemAtStart?_pythonFrom (name : Text) : itemAtStart? pythonFrom ("import ".toList ++ name) = none := by
  have hword : Pattern.Fails (.word "from") (.start ("import ".toList ++ name)) := by
    apply Pattern.fails_word
    intro c more heq
    exact absurd (List.cons.inj heq).1 (by decide)
  have hfails : Pattern.Fails pythonFrom (.start ("import ".toList ++ name)) :=
    (((hword.seq _).seq _).seq _).seq _
  rw [itemAtStart?, Pattern.matchStart?, hfails]
  rfl

theorem ImportsModule.pythonStep_none (himports : ImportsModule line name) : pythonStep none line = ([name], none) := by
  have hquote : openTripleQuote? ("import ".toList ++ name) = none := rfl
  have hcode : startsWith ['#'] ("import ".toList ++ name) = false := rfl
  rw [pythonStep, himports.line_eq, hquote]
  simp only [hcode, itemAtStart?_pythonFrom, himports.itemAtStart?, himports.pythonModules_eq, Bool.false_eq_true,
    if_false]

/-- A module is found just where no quotes are remembered. -/
theorem ImportsModule.contributes_iff (himports : ImportsModule line name) :
    Contributes front line name ↔ openQuote? front = none := by
  have hfront : pythonNames none front = namesMet pythonStep none front := by
    have happend := readsBy_pythonStep.append none front []
    rwa [List.append_nil, pythonNames, List.append_nil] at happend
  have hline : ∀ quote?, pythonNames quote? [line] = (pythonStep quote? line).1 := by
    intro quote?
    rw [readsBy_pythonStep, pythonNames, List.append_nil]
  rw [Contributes, readsBy_pythonStep.append, hfront, hline, List.append_right_inj, ← openQuote?]
  cases hquote : openQuote? front with
  | none => simp [himports.pythonStep_none]
  | some quote => simp [pythonStep]

end Modules

section Strings

variable {line quote : Text} {state : LexState}

theorem solid_of_mem_tripleQuotes (hquote : quote ∈ tripleQuotes) : Solid quote := by
  have hvisible : tripleQuotes.all (fun quote => quote.all fun c => !isBlank c) = true := by decide
  apply solid_of_forall
  · rintro rfl
    exact absurd hquote (by decide)
  · intro c hc
    have hchars := List.all_eq_true.1 hvisible quote hquote
    have hblank := List.all_eq_true.1 hchars c hc
    rwa [Bool.not_eq_true'] at hblank

theorem opensWith_of_openTripleQuote? (hopen : openTripleQuote? (trim line) = some quote) :
    quote ∈ tripleQuotes ∧ OpensWith quote line := by
  refine ⟨List.mem_of_find?_eq_some hopen, ?_⟩
  have hfound := List.find?_some hopen
  split at hfound
  · next rest hstrip =>
    refine ⟨rest, strip?_eq_some_iff.1 hstrip, fun hwithin => ?_⟩
    rw [contains_iff.2 hwithin] at hfound
    contradiction
  · contradiction

theorem not_opensWith_of_openTripleQuote? (hopen : openTripleQuote? (trim line) = none) :
    ∀ quote ∈ tripleQuotes, ¬ OpensWith quote line := by
  rintro quote hquote ⟨rest, hline, hrest⟩
  have hnot := List.find?_eq_none.1 hopen quote hquote
  rw [hline, strip?_append] at hnot
  apply hnot
  rw [Bool.not_eq_true', Bool.eq_false_iff]
  exact mt contains_iff.1 hrest

/-- White space in front of a line that begins in code does not matter to the state behind it. -/
theorem deliver?_code_blank {lexicon : Lexicon} (hvisible : lexicon.opensVisibly = true) {fill : Text}
    (hfill : Blank fill) (before rest : Text) :
    (lexicon.deliver? .code before (fill ++ rest)).map Prod.snd =
      (lexicon.deliver? .code (fill.reverse ++ before) rest).map Prod.snd := by
  induction fill generalizing before with
  | nil => rfl
  | cons c fill ih =>
    obtain ⟨hc, hfill⟩ := List.forall_mem_cons.1 hfill
    have hmove : lexicon.codeMove before (c :: (fill ++ rest)) = .code := Lexicon.codeMove_blank hvisible hc before
    rw [List.cons_append, Lexicon.deliver?_code hmove, List.reverse_cons, List.append_assoc, List.singleton_append,
      ← ih hfill (c :: before), Option.map_map]
    rfl

/-- A string that is opened at the front of a line and does not end on it is open behind the line. -/
theorem readLine_of_opensWith (hquote : quote ∈ tripleQuotes) (hopens : OpensWith quote line) :
    (pythonLexicon.readLine .code line).state = .literal quote true true := by
  obtain ⟨rest, htrim, hrest⟩ := hopens
  obtain ⟨before, after, hbefore, hafter, hline⟩ := exists_eq_append_trim line
  have hnone : ¬ quote <:+: rest ++ after := by
    intro hwithin
    have hend := (solid_of_mem_tripleQuotes hquote).ends.isInfix_trimEnd hwithin
    rw [trimEnd_append_blank hafter] at hend
    exact hrest (hend.trans (trimEnd_isPrefix rest).isInfix)
  have hmove : pythonLexicon.move .code (before.reverse ++ []) (quote ++ (rest ++ after)) =
      .token quote.length (.literal quote true true) := by
    simp only [tripleQuotes, List.mem_cons, List.not_mem_nil, or_false] at hquote
    rcases hquote with rfl | rfl
    · rfl
    · rfl
  have hne : quote ≠ [] := (solid_of_mem_tripleQuotes hquote).ends.ne_nil
  apply Lexicon.state_readLine_of_deliver?
  rw [hline, htrim, List.append_assoc, deliver?_code_blank (by decide) hbefore,
    Lexicon.deliver?_mark hmove (List.append_ne_nil_of_left_ne_nil hne _),
    Literal.deliver?_of_not_ends (Literal.not_ends_of_absent hnone)]
  rfl

/-- A string goes on over a line without its quotes. -/
theorem readLine_of_not_isInfix (hline : ¬ quote <:+: line) :
    (pythonLexicon.readLine (.literal quote true true) line).state = .literal quote true true := by
  apply Lexicon.state_readLine_of_deliver?
  rw [Literal.deliver?_of_not_ends (Literal.not_ends_of_absent hline)]
  rfl

end Strings

section Steps

variable {line : Text} {quote? : Option Text} {state : LexState}

/-- What is remembered is what the state of the reader tells. -/
inductive InStep : Option Text → LexState → Prop where
  | code : InStep none .code
  | literal {quote : Text} (hquote : quote ∈ tripleQuotes) : InStep (some quote) (.literal quote true true)

theorem InStep.eq_none_iff (hstep : InStep quote? state) : quote? = none ↔ state = .code := by
  cases hstep with
  | code => simp
  | literal hquote => simp

theorem snd_pythonStep_none (line : Text) : (pythonStep none line).2 = openTripleQuote? (trim line) := by
  rw [pythonStep]
  cases openTripleQuote? (trim line) with
  | some quote => rfl
  | none =>
    dsimp only
    split
    · rfl
    · cases itemAtStart? pythonFrom (trim line) with
      | some name => rfl
      | none =>
        cases itemAtStart? pythonImport (trim line) with
        | some list => rfl
        | none => rfl

theorem snd_pythonStep_some {quote : Text} (hquote : quote ∈ tripleQuotes) (line : Text) :
    (pythonStep (some quote) line).2 = if quote <:+: line then none else some quote := by
  simp only [pythonStep, contains_iff, (solid_of_mem_tripleQuotes hquote).isInfix_trim_iff]

/-- Behind a line that misleads no quotes are remembered. -/
theorem InStep.snd_pythonStep (hstep : InStep quote? state) (hmisleads : Misleads state line) :
    (pythonStep quote? line).2 = none := by
  obtain ⟨-, ⟨hstate, hopens⟩ | ⟨quote, hstate, hline⟩⟩ := hmisleads
  · obtain rfl := hstep.eq_none_iff.2 hstate
    rw [snd_pythonStep_none]
    cases hopen : openTripleQuote? (trim line) with
    | none => rfl
    | some quote =>
      obtain ⟨hquote, hopen⟩ := opensWith_of_openTripleQuote? hopen
      exact absurd hopen (hopens quote hquote)
  · subst hstate
    cases hstep with
    | literal hquote => rw [snd_pythonStep_some hquote, if_pos hline]

/-- A line that does not mislead keeps what is remembered in step with the reader. -/
theorem InStep.next (hstep : InStep quote? state) (hright : ¬ Misleads state line) :
    InStep (pythonStep quote? line).2 (pythonLexicon.readLine state line).state := by
  cases hstep with
  | code =>
    rw [snd_pythonStep_none]
    cases hopen : openTripleQuote? (trim line) with
    | some quote =>
      obtain ⟨hquote, hopen⟩ := opensWith_of_openTripleQuote? hopen
      rw [readLine_of_opensWith hquote hopen]
      exact .literal hquote
    | none =>
      have hopens := not_opensWith_of_openTripleQuote? hopen
      have hcode : (pythonLexicon.readLine .code line).state = .code :=
        Decidable.byContradiction fun hne => hright ⟨hne, .inl ⟨rfl, hopens⟩⟩
      rw [hcode]
      exact .code
  | @literal quote hquote =>
    rw [snd_pythonStep_some hquote]
    by_cases hline : quote <:+: line
    · have hcode : (pythonLexicon.readLine (.literal quote true true) line).state = .code :=
        Decidable.byContradiction fun hne => hright ⟨hne, .inr ⟨quote, rfl, hline⟩⟩
      rw [if_pos hline, hcode]
      exact .code
    · rw [if_neg hline, readLine_of_not_isInfix hline]
      exact .literal hquote

end Steps

section Runs

variable {lines : List Text} {index : Nat} {line : Text} {rest : List Text}

theorem openQuote?_take_succ (hline : lines.drop index = line :: rest) :
    openQuote? (lines.take (index + 1)) = (pythonStep (openQuote? (lines.take index)) line).2 := by
  have hget : lines[index]? = some line := by
    rw [← List.head?_drop, hline, List.head?_cons]
  rw [List.take_add_one, hget, Option.toList_some, openQuote?, stateAfter_concat, ← openQuote?]

/-- What is remembered behind the first lines is in step with the reader as long as none of them misleads. -/
theorem inStep_of_forall_not_misleads (hindex : index ≤ lines.length)
    (hright : ∀ k < index, ∀ line ∈ lines[k]?, ¬ Misleads (pythonLexicon.stateAt lines k) line) :
    InStep (openQuote? (lines.take index)) (pythonLexicon.stateAt lines index) := by
  induction index with
  | zero => exact .code
  | succ index ih =>
    have hbefore := ih (Nat.le_of_succ_le hindex) fun k hk => hright k (Nat.lt_succ_of_lt hk)
    have hdrop := List.drop_eq_getElem_cons hindex
    rw [openQuote?_take_succ hdrop, pythonLexicon.stateAt_succ hdrop]
    exact hbefore.next (hright index (Nat.lt_succ_self index) _ (List.getElem?_eq_getElem hindex))

/-- The quotes that are remembered tell where the reader is in code just as long as no line misleads. -/
theorem forall_eq_none_iff :
    (∀ index ≤ lines.length, openQuote? (lines.take index) = none ↔ pythonLexicon.stateAt lines index = .code) ↔
      ∀ index, ∀ line ∈ lines[index]?, ¬ Misleads (pythonLexicon.stateAt lines index) line := by
  constructor
  · intro hagree index
    induction index using Nat.strong_induction_on with
    | _ index ih =>
      intro line hline hmisleads
      obtain ⟨hindex, hget⟩ := List.getElem?_eq_some_iff.1 hline
      have hdrop := List.drop_eq_getElem_cons hindex
      rw [hget] at hdrop
      -- up to the line the two are in step, behind it no quotes are remembered, and yet a string is open
      have hstep := inStep_of_forall_not_misleads (Nat.le_of_lt hindex) ih
      have hnone := hstep.snd_pythonStep hmisleads
      rw [← openQuote?_take_succ hdrop, hagree (index + 1) hindex, pythonLexicon.stateAt_succ hdrop] at hnone
      exact hmisleads.1 hnone
  · intro hright index hindex
    exact (inStep_of_forall_not_misleads hindex fun k _ => hright k).eq_none_iff

/-- Modules are found just where a reader of the language is in code if and only if no line of the text misleads. The
lines of a string are passed over by the quotes that opened a line alone, and one line on which this and the reader
part is enough for an import to be lost or found where there is none. -/
theorem heedsStrings_iff (t : Text) :
    HeedsStrings t ↔
      ∀ index, ∀ line ∈ (Text.lines t)[index]?, ¬ Misleads (pythonLexicon.stateAt (Text.lines t) index) line := by
  rw [← forall_eq_none_iff]
  constructor
  · intro hheeds index hindex
    have himports : ImportsModule "import m".toList ['m'] :=
      ⟨by decide, by decide, List.forall_mem_singleton.2 (.inl (by decide))⟩
    rw [← himports.contributes_iff]
    exact hheeds index hindex _ _ himports
  · intro hagree index hindex line name himports
    rw [himports.contributes_iff]
    exact hagree index hindex

/-- A string that is opened behind an equals sign, with an import in it and another one after it. -/
def assignedString : Text :=
  "x = \"\"\"\nimport a\n\"\"\"\nimport b\n".toList

/-- An import in a string is found, and the one that follows the string is lost. -/
theorem not_heedsStrings_assignedString :
    importsOf .python assignedString = [['a']] ∧
    pythonLexicon.stateAt (Text.lines assignedString) 1 = .literal ['"', '"', '"'] true true ∧
    pythonLexicon.stateAt (Text.lines assignedString) 3 = .code ∧ ¬ HeedsStrings assignedString := by
  have hstate : pythonLexicon.stateAt (Text.lines assignedString) 3 = .code := by decide
  have hlost : ¬ Contributes ((Text.lines assignedString).take 3) "import b".toList ['b'] := by
    unfold Contributes
    decide
  refine ⟨by decide, by decide, hstate, fun hheeds => ?_⟩
  apply hlost
  have himports : ImportsModule "import b".toList ['b'] :=
    ⟨by decide, by decide, List.forall_mem_singleton.2 (.inl (by decide))⟩
  exact (hheeds 3 (by decide) _ _ himports).2 hstate

end Runs

end Imports

end Outline
