import Outline.Extent.Checked
import Outline.Proofs.Extent.Reach
import Outline.Proofs.Lexing.Lingering

namespace Outline

/-- The bytes of lines with a line end behind each. -/
def Text.storage (lines : List Text) : Nat :=
  (lines.map fun line => byteSize line + 1).sum

@[simp]
theorem Text.storage_cons (line : Text) (rest : List Text) :
    storage (line :: rest) = byteSize line + 1 + storage rest := by
  simp [storage]

theorem Text.length_le_byteSize (t : Text) : t.length ≤ byteSize t := by
  induction t with
  | nil => exact Nat.le_refl _
  | cons c t ih =>
    have hsize := Char.utf8Size_pos c
    rw [List.length_cons, byteSize_cons]
    omega

theorem Text.byteSize_le_of_sublist {s t : Text} (hsublist : s.Sublist t) : byteSize s ≤ byteSize t := by
  induction hsublist with
  | slnil => exact Nat.le_refl _
  | cons c _ ih => exact Nat.le_trans ih (Nat.le_add_left _ _)
  | cons_cons c _ ih => exact Nat.add_le_add_left ih _

theorem Text.length_le_storage (lines : List Text) : lines.length ≤ storage lines := by
  induction lines with
  | nil => exact Nat.le_refl _
  | cons line rest ih =>
    rw [List.length_cons, storage_cons]
    omega

theorem Text.storage_le_of_sublist {window lines : List Text} (hsublist : window.Sublist lines) :
    storage window ≤ storage lines := by
  induction hsublist with
  | slnil => exact Nat.le_refl _
  | cons line _ ih =>
    rw [storage_cons]
    omega
  | cons_cons line _ ih =>
    rw [storage_cons, storage_cons]
    omega

namespace BlockRules

/-- An extent, unless it is a guess whose sum is no word. -/
def unlessTooLarge (rules : BlockRules) (start : Nat) (extent : Extent) : Except Breakdown Extent :=
  if extent.isDegraded = true ∧ UInt64.size ≤ start + rules.limits.fallbackSpan then .error .overflow
  else .ok extent

/-- Some line is one at a character of which a reader may stay for ever, in a state in which a reader can be. -/
def MayStall (rules : BlockRules) (lines : List Text) : Prop :=
  ∃ line ∈ lines, ∃ first, rules.lexicon.Possible first ∧ rules.lexicon.Stalls first line

/-- What becomes of a search over lines that is made in words: it gives the extent, unless that is a guess whose sum
is no word, or the reader stays for ever on one of the lines. -/
inductive RunsTo (rules : BlockRules) (start : Nat) (lines : List Text) : Except Breakdown Extent → Extent → Prop where
  | answers (extent : Extent) : RunsTo rules start lines (rules.unlessTooLarge start extent) extent
  | stalls (hstalls : rules.MayStall lines) (extent : Extent) : RunsTo rules start lines (.error .endless) extent

variable {rules : BlockRules} {start last headerEnd : Nat}

section Runs

variable {run : Except Breakdown Extent} {extent : Extent} {line : Text} {rest : List Text}

theorem RunsTo.of_eq (hrun : run = rules.unlessTooLarge start extent) : rules.RunsTo start rest run extent :=
  hrun ▸ .answers extent

theorem MayStall.mono {lines : List Text} (hstalls : rules.MayStall rest) (hlines : rest ⊆ lines) :
    rules.MayStall lines := by
  obtain ⟨line, hmem, hline⟩ := hstalls
  exact ⟨line, hlines hmem, hline⟩

/-- No reader stays for ever where no mark is empty. -/
theorem not_mayStall (hmarks : rules.lexicon.hasMarks = true) (lines : List Text) : ¬ rules.MayStall lines := by
  rintro ⟨line, -, first, hfirst, hstalls⟩
  have hfinished : (rules.lexicon.readLine first line).finished = true :=
    Lexicon.finished_readFrom hmarks hfirst 0 0 [] line
  rw [Lexicon.finished_readLine_eq_false_iff.2 hstalls] at hfinished
  cases hfinished

theorem RunsTo.mono {lines : List Text} (hrun : rules.RunsTo start rest run extent) (hlines : rest ⊆ lines) :
    rules.RunsTo start lines run extent := by
  cases hrun with
  | answers => exact .answers extent
  | stalls hstalls => exact .stalls (hstalls.mono hlines) extent

theorem RunsTo.tail (hrun : rules.RunsTo start rest run extent) : rules.RunsTo start (line :: rest) run extent :=
  hrun.mono (List.subset_cons_self _ _)

/-- A line is read, or the reader stays for ever at a character of it. -/
theorem readLine?_cases (rules : BlockRules) (state : LexState) (line : Text) :
    rules.lexicon.readLine? state line = .ok (rules.lexicon.readLine state line) ∨
      rules.lexicon.readLine? state line = .error .endless ∧ rules.lexicon.Stalls state line := by
  cases hfinished : (rules.lexicon.readLine state line).finished with
  | true => exact .inl (by rw [Lexicon.readLine?]; exact if_pos hfinished)
  | false =>
    have hopen : ¬ (rules.lexicon.readLine state line).finished = true := by simp [hfinished]
    exact .inr ⟨by rw [Lexicon.readLine?]; exact if_neg hopen, Lexicon.finished_readLine_eq_false_iff.1 hfinished⟩

theorem RunsTo.read {state : LexState} {answer : Reading → Except Breakdown Extent}
    (hstate : rules.lexicon.Possible state)
    (hrun : rules.RunsTo start (line :: rest) (answer (rules.lexicon.readLine state line)) extent) :
    rules.RunsTo start (line :: rest) ((rules.lexicon.readLine? state line).bind answer) extent := by
  obtain hread | ⟨hread, hstalls⟩ := rules.readLine?_cases state line <;> rw [hread]
  · exact hrun
  · exact .stalls ⟨line, List.mem_cons_self, state, hstate, hstalls⟩ extent

end Runs

theorem unlessTooLarge_found {extent : Extent} (hfound : extent.isDegraded = false) :
    rules.unlessTooLarge start extent = .ok extent := by
  simp [unlessTooLarge, hfound]

theorem eq_of_unlessTooLarge {extent answer : Extent} (hanswer : rules.unlessTooLarge start extent = .ok answer) :
    answer = extent := by
  unfold unlessTooLarge at hanswer
  split at hanswer
  · cases hanswer
  · exact (Except.ok.inj hanswer).symm

theorem fits_of_unlessTooLarge {extent answer : Extent} (hanswer : rules.unlessTooLarge start extent = .ok answer)
    (hdegraded : extent.isDegraded = true) : start + rules.limits.fallbackSpan < UInt64.size := by
  unfold unlessTooLarge at hanswer
  split at hanswer
  · cases hanswer
  · next hfits => exact Nat.not_le.1 fun hlarge => hfits ⟨hdegraded, hlarge⟩

theorem RunsTo.eq_of_hasMarks {run : Except Breakdown Extent} {extent : Extent} {lines : List Text}
    (hrun : rules.RunsTo start lines run extent) (hmarks : rules.lexicon.hasMarks = true) :
    run = rules.unlessTooLarge start extent := by
  cases hrun with
  | answers => rfl
  | stalls hstalls => exact absurd hstalls (not_mayStall hmarks lines)

theorem RunsTo.eq_of_ok {run : Except Breakdown Extent} {extent answer : Extent} {lines : List Text}
    (hrun : rules.RunsTo start lines run extent) (hanswer : run = .ok answer) : answer = extent := by
  cases hrun with
  | answers => exact eq_of_unlessTooLarge hanswer
  | stalls => cases hanswer

theorem RunsTo.found {extent : Extent} {lines : List Text} (hfound : extent.isDegraded = false) :
    rules.RunsTo start lines (.ok extent) extent :=
  .of_eq (unlessTooLarge_found hfound).symm

theorem RunsTo.fallback {outcome : Outcome} {lines : List Text}
    (hdegraded : (rules.fallback start last headerEnd outcome).isDegraded = true) :
    rules.RunsTo start lines (rules.fallback? start last headerEnd outcome)
      (rules.fallback start last headerEnd outcome) := by
  apply RunsTo.of_eq
  by_cases hfits : start + rules.limits.fallbackSpan < UInt64.size
  · rw [fallback?, sumWord?_eq_ok hfits, unlessTooLarge, if_neg (by omega)]
    rfl
  · rw [fallback?, sumWord?, if_neg hfits, unlessTooLarge, if_pos ⟨hdegraded, by omega⟩]
    rfl

theorem exceedsSaturating_eq {index iterations : Nat} (hindex : index < UInt64.size) :
    rules.exceedsSaturating start index iterations = rules.exceeds start index iterations := by
  simp only [exceedsSaturating, exceeds, saturatingSum_lt_iff hindex]

section Searches

variable {pace : Nat} {states : LexState → Prop} {state : LexState} {lines : List Text} {index iterations : Nat}

/-- What the sums of a search from line `index` on need: every line has a number, and there are words for the moves
over all characters that are still to be read. -/
structure Fits (rules : BlockRules) (pace : Nat) (states : LexState → Prop) (index iterations : Nat)
    (state : LexState) (lines : List Text) : Prop where
  paced : rules.lexicon.Paced pace states
  pace_pos : 0 < pace
  possible_of_mem : ∀ {other : LexState}, states other → rules.lexicon.Possible other
  state_mem : states state
  index_lt : index + lines.length < UInt64.size
  iterations_lt : iterations + pace * Text.storage lines < UInt64.size

/-- One line further the sums fit again, after at most as many moves as the bytes of the line allow. -/
theorem Fits.next {line : Text} {rest : List Text}
    (hfits : rules.Fits pace states index iterations state (line :: rest)) {count : Nat}
    (hcount : count ≤ pace * (Text.byteSize line + 1)) :
    sumWord? iterations count = .ok (iterations + count) ∧ sumWord? index 1 = .ok (index + 1) ∧
      rules.Fits pace states (index + 1) (iterations + count) (rules.lexicon.readLine state line).state rest := by
  obtain ⟨hpaced, hpos, hpossible, hstate, hindex, hiterations⟩ := hfits
  rw [List.length_cons] at hindex
  rw [Text.storage_cons, Nat.mul_add] at hiterations
  exact ⟨sumWord?_eq_ok (by omega), sumWord?_eq_ok (by omega), hpaced, hpos, hpossible,
    hpaced.state_readLine hstate line, by omega, by omega⟩

theorem Fits.possible (hfits : rules.Fits pace states index iterations state lines) :
    rules.lexicon.Possible state :=
  hfits.possible_of_mem hfits.state_mem

theorem Fits.examined_le {line : Text} {rest : List Text}
    (hfits : rules.Fits pace states index iterations state (line :: rest)) :
    (rules.lexicon.readLine state line).examined ≤ pace * (Text.byteSize line + 1) := by
  have hmoves := hfits.paced.examined_readFrom_le hfits.state_mem 0 0 [] line
  exact Nat.le_trans hmoves (Nat.mul_le_mul_left pace (Nat.le_succ_of_le (Text.length_le_byteSize line)))

theorem Fits.codeText_le {line : Text} {rest : List Text}
    (hfits : rules.Fits pace states index iterations state (line :: rest)) :
    max (Text.byteSize (rules.lexicon.readLine state line).codeText) 1 ≤ pace * (Text.byteSize line + 1) := by
  have hcode := Text.byteSize_le_of_sublist (rules.lexicon.codeText_readFrom_sublist 0 0 state [] line)
  have hone := Nat.le_mul_of_pos_left (Text.byteSize line + 1) hfits.pace_pos
  rw [Lexicon.readLine]
  omega

theorem Fits.index_lt_size (hfits : rules.Fits pace states index iterations state lines) : index < UInt64.size :=
  Nat.lt_of_le_of_lt (Nat.le_add_right _ _) hfits.index_lt

theorem runsTo_countToClose? {opener closer : Char} {depth : Int}
    (hfits : rules.Fits pace states index iterations state lines) :
    rules.RunsTo start lines
      (rules.countToClose? opener closer start headerEnd last index iterations state depth lines)
      (rules.countToClose opener closer start headerEnd last index iterations state depth lines) := by
  induction lines generalizing index iterations state depth with
  | nil => exact .fallback rfl
  | cons line rest ih =>
    obtain ⟨hexamined, hnext, hrest⟩ := hfits.next hfits.examined_le
    simp only [countToClose?, countToClose, exceedsSaturating_eq hfits.index_lt_size]
    split
    · exact .fallback rfl
    · apply RunsTo.read hfits.possible
      simp only [hexamined, hnext, Except.bind]
      split
      · exact .found rfl
      · exact (ih hrest).tail

theorem runsTo_findOpener? {opener closer : Char} {parens : Int} (hlast : last < UInt64.size)
    (hfits : rules.Fits pace states index iterations state lines) :
    rules.RunsTo start lines (rules.findOpener? opener closer start last index iterations state parens lines)
      (rules.findOpener opener closer start last index iterations state parens lines) := by
  induction lines generalizing index iterations state parens with
  | nil => exact .found rfl
  | cons line rest ih =>
    obtain ⟨hexamined, hnext, hrest⟩ := hfits.next hfits.examined_le
    simp only [findOpener?, findOpener, min_saturatingSum hlast]
    apply RunsTo.read hfits.possible
    simp only [hexamined, hnext, Except.bind]
    split
    · exact .found rfl
    · split
      · split
        · refine .found ?_
          by_cases hfirst : index = start <;> simp [hfirst, Extent.isDegraded]
        · exact (runsTo_countToClose? hrest).tail
      · by_cases hlimit : min (start + rules.limits.openerLookahead) last ≤ index
        · rw [if_pos hlimit, if_pos (by simp [hlimit])]
          exact .found rfl
        · simp only [hlimit, decide_false, Bool.false_or, if_false]
          split
          · exact .found rfl
          · exact (ih hrest).tail

/-- The head is found as it is found without checks, and the sums of the body after it fit. -/
theorem exists_indentHead? (start : Nat) (brackets : Int) (hlines : index + lines.length = last + 1)
    (hsome : lines ≠ []) (hfits : rules.Fits pace states index iterations state lines) :
    (rules.indentHead? start last index iterations state brackets lines = .error .endless ∧
      rules.MayStall lines) ∨
    ∃ headerEnd examined before rest,
      rules.indentHead start last index iterations state brackets lines = (headerEnd, examined, rest) ∧
      rules.indentHead? start last index iterations state brackets lines = .ok (headerEnd, examined, rest) ∧
      sumWord? headerEnd 1 = .ok (headerEnd + 1) ∧ lines = before ++ rest ∧
      rules.Fits pace states (headerEnd + 1) examined .code rest := by
  induction lines generalizing index iterations state brackets with
  | nil => exact absurd rfl hsome
  | cons line rest ih =>
    rw [List.length_cons] at hlines
    obtain ⟨hexamined, hnext, hrest⟩ := hfits.next hfits.examined_le
    simp only [indentHead?, indentHead]
    obtain hread | ⟨hread, hstalls⟩ := rules.readLine?_cases state line
    case inr =>
      rw [hread]
      exact .inl ⟨rfl, line, List.mem_cons_self, state, hfits.possible, hstalls⟩
    simp only [hread, hexamined, hnext, Except.bind]
    split
    · exact .inr ⟨_, _, [line], _, rfl, rfl, hnext, rfl, hrest.paced, hrest.pace_pos,
        hrest.possible_of_mem, hrest.paced.code, hrest.index_lt, hrest.iterations_lt⟩
    · next hgoes =>
      have hmore : rest ≠ [] := by
        rintro rfl
        simp only [Bool.or_eq_true, decide_eq_true_eq, not_or] at hgoes
        rw [List.length_nil] at hlines
        omega
      obtain ⟨herror, hstalls⟩ | ⟨headerEnd, examined, before, later, hhead, hhead?, hsum, rfl, hlater⟩ :=
        ih _ (by omega) hmore hrest
      · exact .inl ⟨herror, hstalls.mono (List.subset_cons_self _ _)⟩
      · exact .inr ⟨headerEnd, examined, line :: before, later, hhead, hhead?, hsum, rfl, hlater⟩

theorem runsTo_indentBody? {base reached : Nat} (hfits : rules.Fits pace states index iterations state lines) :
    rules.RunsTo start lines
      (rules.indentBody? start headerEnd last base index iterations reached state lines)
      (rules.indentBody start headerEnd last base index iterations reached state lines) := by
  induction lines generalizing index iterations reached state with
  | nil => exact .found (isDegraded_closeIndent _ _ _)
  | cons line rest ih =>
    obtain ⟨hexamined, hnext, hrest⟩ := hfits.next hfits.examined_le
    simp only [indentBody?, indentBody, exceedsSaturating_eq hfits.index_lt_size]
    split
    · exact .fallback rfl
    · apply RunsTo.read hfits.possible
      simp only [hexamined, hnext, Except.bind]
      cases hcode : state.inCode with
      | false => exact (ih hrest).tail
      | true =>
        cases hidle : rules.isIdle line with
        | true => exact (ih hrest).tail
        | false =>
          by_cases hdeep : indentWidth line ≤ base
          · simp only [hdeep]
            exact .found (isDegraded_closeIndent _ _ _)
          · simp only [hdeep]
            exact (ih hrest).tail

theorem runsTo_keywordBody? {depth brackets : Nat} {previous : Text}
    (hfits : rules.Fits pace states index iterations state lines) :
    rules.RunsTo start lines
      (rules.keywordBody? start last index iterations state depth brackets previous lines)
      (rules.keywordBody start last index iterations state depth brackets previous lines) := by
  induction lines generalizing index iterations state depth brackets previous with
  | nil => exact .fallback rfl
  | cons line rest ih =>
    obtain ⟨hexamined, hnext, hrest⟩ := hfits.next hfits.codeText_le
    simp only [keywordBody?, keywordBody, exceedsSaturating_eq hfits.index_lt_size]
    split
    · exact .fallback rfl
    · apply RunsTo.read hfits.possible
      simp only [hexamined, hnext, Except.bind]
      split
      · refine .found ?_
        split <;> rfl
      · exact (ih hrest).tail

theorem runsTo_statementBody? {balance : Int} (hfits : rules.Fits pace states index iterations state lines) :
    rules.RunsTo start lines (rules.statementBody? start last index iterations state balance lines)
      (rules.statementBody start last index iterations state balance lines) := by
  induction lines generalizing index iterations state balance with
  | nil => exact .fallback rfl
  | cons line rest ih =>
    obtain ⟨hexamined, hnext, hrest⟩ := hfits.next hfits.examined_le
    simp only [statementBody?, statementBody, exceedsSaturating_eq hfits.index_lt_size]
    split
    · exact .fallback rfl
    · apply RunsTo.read hfits.possible
      simp only [hexamined, hnext, Except.bind]
      split
      · refine .found ?_
        by_cases hfirst : index = start <;> simp [hfirst, Extent.isDegraded]
      · exact (ih hrest).tail

theorem runsTo_indentExtent? (hsome : lines ≠ []) (hfits : rules.Fits pace states start 0 .code lines) :
    rules.RunsTo start lines (rules.indentExtent? start lines) (rules.indentExtent start lines) := by
  have hpos := List.length_pos_iff.2 hsome
  have hlines : start + lines.length = start + lines.length - 1 + 1 := by omega
  obtain ⟨herror, hstalls⟩ | ⟨headerEnd, examined, before, rest, hhead, hhead?, hnext, rfl, hbody⟩ :=
    exists_indentHead? start 0 hlines hsome hfits
  · simp only [indentExtent?, herror, Except.bind]
    exact .stalls hstalls _
  · simp only [indentExtent?, indentExtent, hhead, hhead?, hnext, Except.bind]
    exact (runsTo_indentBody? hbody).mono (List.subset_append_right _ _)

/-- In words the extent of a declaration with a body is the same, unless it is a guess whose sum is no word. -/
theorem runsTo_blockExtent? (hfits : rules.Fits pace states start 0 .code lines) :
    rules.RunsTo start lines (rules.blockExtent? start lines) (rules.blockExtent start lines) := by
  have hlast : start + lines.length - 1 < UInt64.size := by
    have := hfits.index_lt
    omega
  by_cases hsome : lines = []
  · rw [hsome]
    exact .found rfl
  · simp only [blockExtent?, blockExtent, List.isEmpty_iff, hsome, if_false]
    cases rules.style with
    | braces opener closer => exact runsTo_findOpener? hlast hfits
    | indent => exact runsTo_indentExtent? hsome hfits
    | keyword => exact runsTo_keywordBody? hfits

theorem runsTo_pairExtent? {opener closer : Char} (hfits : rules.Fits pace states start 0 .code lines) :
    rules.RunsTo start lines (rules.pairExtent? opener closer start lines)
      (rules.pairExtent opener closer start lines) := by
  cases lines with
  | nil => exact .found rfl
  | cons line rest =>
    obtain ⟨_, hnext, hrest⟩ := hfits.next hfits.examined_le
    rw [Nat.zero_add] at hrest
    simp only [pairExtent?, pairExtent]
    apply RunsTo.read hfits.possible
    split
    · exact .found rfl
    · simp only [hnext, Except.bind]
      exact (runsTo_countToClose? hrest).tail

theorem runsTo_openBlockExtent? (hfits : rules.Fits pace states start 0 .code lines) :
    rules.RunsTo start lines (rules.openBlockExtent? start lines) (rules.openBlockExtent start lines) := by
  unfold openBlockExtent? openBlockExtent
  cases rules.style with
  | braces opener closer => exact runsTo_pairExtent? hfits
  | indent => exact runsTo_blockExtent? hfits
  | keyword => exact runsTo_blockExtent? hfits

theorem runsTo_statementExtent? (hfits : rules.Fits pace states start 0 .code lines) :
    rules.RunsTo start lines (rules.statementExtent? start lines) (rules.statementExtent start lines) := by
  by_cases hsome : lines = []
  · rw [hsome]
    exact .found rfl
  · simp only [statementExtent?, statementExtent, List.isEmpty_iff, hsome, if_false]
    exact runsTo_statementBody? hfits

/-- The sums of a search fit on lines for whose bytes there are words enough. -/
theorem fits_windowOf (hpaced : rules.lexicon.Paced pace states) (hpos : 0 < pace)
    (hpossible : ∀ {state : LexState}, states state → rules.lexicon.Possible state) (hstart : start < lines.length)
    (hlast : start ≤ last) (hmemory : pace * Text.storage lines < UInt64.size) :
    rules.Fits pace states start 0 .code (windowOf lines start last) := by
  have hlines := add_length_windowOf hstart hlast
  have hlength := Text.length_le_storage lines
  have hwhole := Nat.le_mul_of_pos_left (Text.storage lines) hpos
  have hsublist : (windowOf lines start last).Sublist lines :=
    (List.take_sublist _ _).trans (List.drop_sublist _ _)
  have hless := Nat.mul_le_mul_left pace (Text.storage_le_of_sublist hsublist)
  exact ⟨hpaced, hpos, hpossible, hpaced.code, by omega, by omega⟩

end Searches

end BlockRules

end Outline
