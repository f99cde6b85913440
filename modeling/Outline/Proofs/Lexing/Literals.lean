import Outline.Proofs.Lexing.Passage

namespace Outline

namespace Literal

/-- A text behind which a line is unescaped: a scan from the left, in which with escapes a backslash takes the next
character along, comes to its end. -/
inductive Unescaped (escapes : Bool) : Text → Prop where
  | nil : Unescaped escapes []
  | char {c : Char} {t : Text} (hplain : escapes = true → c ≠ '\\') (hrest : Unescaped escapes t) :
      Unescaped escapes (c :: t)
  | escape {c : Char} {t : Text} (hescapes : escapes = true) (hrest : Unescaped escapes t) :
      Unescaped escapes ('\\' :: c :: t)

/-- The mark `close` stands in the line between `hidden` and `after`, at an unescaped character. -/
structure Occurs (close : Text) (escapes : Bool) (line hidden after : Text) : Prop where
  line_eq : line = hidden ++ (close ++ after)
  inside : close ++ after ≠ []
  unescaped : Unescaped escapes hidden

/-- A literal that gets to `line` ends between `hidden` and `after`: its closing mark stands there, and with escapes
not at a backslash. -/
structure Ends (close : Text) (escapes : Bool) (line hidden after : Text) : Prop
    extends Occurs close escapes line hidden after where
  not_escape : escapes = true → ¬ ['\\'] <+: close ++ after

/-- The first place at which something stands in a line, given by what is before it and behind it. -/
structure First (stands : Text → Text → Prop) (hidden after : Text) : Prop where
  here : stands hidden after
  first : ∀ earlier later, stands earlier later → hidden.length ≤ earlier.length

variable {lexicon : Lexicon} {close line hidden after : Text} {escapes multiline : Bool}

section Places

variable {c : Char}

theorem not_escape_cons (hplain : escapes = true → c ≠ '\\') (rest : Text) :
    escapes = true → ¬ ['\\'] <+: c :: rest := by
  rintro hescapes ⟨later, heq⟩
  apply hplain hescapes
  exact (List.cons.inj heq).1.symm

/-- At the front of a line a literal ends where its closing mark is. -/
theorem ends_nil (hline : line = close ++ after) (hinside : line ≠ [])
    (hescape : escapes = true → ¬ ['\\'] <+: line) : Ends close escapes line [] after := by
  subst hline
  exact ⟨⟨rfl, hinside, .nil⟩, hescape⟩

theorem Ends.cons (hends : Ends close escapes line hidden after) (hplain : escapes = true → c ≠ '\\') :
    Ends close escapes (c :: line) (c :: hidden) after where
  line_eq := by rw [hends.line_eq, List.cons_append]
  inside := hends.inside
  unescaped := .char hplain hends.unescaped
  not_escape := hends.not_escape

theorem Ends.escape (hends : Ends close escapes line hidden after) (hescapes : escapes = true) :
    Ends close escapes ('\\' :: c :: line) ('\\' :: c :: hidden) after where
  line_eq := by rw [hends.line_eq, List.cons_append, List.cons_append]
  inside := hends.inside
  unescaped := .escape hescapes hends.unescaped
  not_escape := hends.not_escape

/-- Where something stands at all, there is a first place where it does. -/
theorem exists_first {stands : Text → Text → Prop} (hstands : stands hidden after) :
    ∃ hidden after, First stands hidden after := by
  have hsome : ∃ n hidden after, stands hidden after ∧ hidden.length = n := ⟨_, hidden, after, hstands, rfl⟩
  classical
  obtain ⟨first, rest, hfirst, hlength⟩ := Nat.find_spec hsome
  refine ⟨first, rest, hfirst, fun earlier later hearlier => ?_⟩
  rw [hlength]
  exact Nat.find_min' hsome ⟨earlier, later, hearlier, rfl⟩

end Places

section Moves

variable {rest : Text} {c : Char}

theorem literalMove_escape (hescapes : escapes = true) (rest : Text) :
    Lexicon.literalMove close escapes multiline ('\\' :: rest) = .token 2 (.literal close escapes multiline) := by
  have hstarts : Text.startsWith ['\\'] ('\\' :: rest) = true := Text.startsWith_iff.2 ⟨rest, rfl⟩
  rw [Lexicon.literalMove, hescapes, hstarts]
  rfl

theorem literalMove_of_not_escape (hescape : escapes = true → ¬ ['\\'] <+: rest) :
    Lexicon.literalMove close escapes multiline rest =
      if close <+: rest then .token close.length .code else .token 1 (.literal close escapes multiline) := by
  have hno : (escapes && Text.startsWith ['\\'] rest) = false := by
    cases escapes with
    | false => rfl
    | true =>
      rw [Bool.true_and, Bool.eq_false_iff, ne_eq, Text.startsWith_iff]
      exact hescape rfl
  rw [Lexicon.literalMove, hno]
  simp only [Bool.false_eq_true, if_false, Text.startsWith_iff]

/-- A backslash takes the reader over the next character of the line, if there is one. -/
theorem deliver?_escape (hescapes : escapes = true) (before rest : Text) :
    lexicon.deliver? (.literal close escapes multiline) before ('\\' :: rest) =
      lexicon.deliver? (.literal close escapes multiline) ((rest.take 1).reverse ++ '\\' :: before) (rest.drop 1) := by
  have hmove : lexicon.move (.literal close escapes multiline) before ('\\' :: rest) =
      .token 2 (.literal close escapes multiline) := literalMove_escape hescapes rest
  rw [Lexicon.deliver?_token hmove Nat.two_pos (List.cons_ne_nil _ _)]
  simp

theorem deliver?_pass (hplain : escapes = true → c ≠ '\\') (hopen : ¬ close <+: c :: rest) (before : Text) :
    lexicon.deliver? (.literal close escapes multiline) before (c :: rest) =
      lexicon.deliver? (.literal close escapes multiline) (c :: before) rest := by
  have hmove : lexicon.move (.literal close escapes multiline) before (c :: rest) =
      .token 1 (.literal close escapes multiline) := by
    rw [Lexicon.move, literalMove_of_not_escape (not_escape_cons hplain rest), if_neg hopen]
  rw [Lexicon.deliver?_token hmove Nat.one_pos (List.cons_ne_nil _ _)]
  rfl

/-- At its closing mark a literal ends, and the reader is in code behind the mark. -/
theorem deliver?_close (hinside : close ++ after ≠ []) (hescape : escapes = true → ¬ ['\\'] <+: close ++ after)
    (before : Text) :
    lexicon.deliver? (.literal close escapes multiline) before (close ++ after) =
      lexicon.deliver? .code (close.reverse ++ before) after := by
  have hmove : lexicon.move (.literal close escapes multiline) before (close ++ after) =
      .token close.length .code := by
    rw [Lexicon.move, literalMove_of_not_escape hescape, if_pos (List.prefix_append _ _)]
  exact Lexicon.deliver?_mark hmove hinside

end Moves

section Lines

/-- A reader in a literal delivers nothing up to the first place where it ends and is in code behind the mark. -/
theorem deliver?_of_ends (hends : First (Ends close escapes line) hidden after) (before : Text) :
    lexicon.deliver? (.literal close escapes multiline) before line =
      lexicon.deliver? .code ((hidden ++ close).reverse ++ before) after := by
  obtain ⟨⟨⟨rfl, hinside, hunescaped⟩, hescape⟩, hfirst⟩ := hends
  -- along the scan: what comes first in the line comes first in what is left of it
  induction hunescaped generalizing before with
  | nil => exact deliver?_close hinside hescape before
  | @char c hidden hplain hunescaped ih =>
    have hopen : ¬ close <+: c :: (hidden ++ (close ++ after)) := by
      rintro ⟨later, heq⟩
      have hle := hfirst [] later (ends_nil heq.symm (List.cons_ne_nil _ _) (not_escape_cons hplain _))
      exact absurd hle (by simp)
    rw [List.cons_append, deliver?_pass hplain hopen, ih]
    · simp
    · intro earlier later hearlier
      have hle := hfirst (c :: earlier) later (hearlier.cons hplain)
      simpa using hle
  | @escape c hidden hescapes hunescaped ih =>
    rw [List.cons_append, List.cons_append, deliver?_escape hescapes]
    simp only [List.take_succ_cons, List.take_zero, List.reverse_singleton, List.drop_succ_cons, List.drop_zero]
    rw [ih]
    · simp
    · intro earlier later hearlier
      have hle := hfirst ('\\' :: c :: earlier) later (hearlier.escape hescapes)
      simpa using hle

/-- A line in which a literal does not end is passed over. -/
theorem deliver?_of_not_ends (hnone : ∀ hidden after, ¬ Ends close escapes line hidden after) (before : Text) :
    lexicon.deliver? (.literal close escapes multiline) before line =
      some ([], (LexState.literal close escapes multiline).atLineEnd) := by
  -- an escape takes two characters at once, so the induction is on the length
  induction hlength : line.length using Nat.strong_induction_on generalizing line before with
  | _ n ih =>
    subst hlength
    cases line with
    | nil => exact Lexicon.deliver?_nil _ _ _
    | cons c line =>
      by_cases hplain : escapes = true → c ≠ '\\'
      · have hopen : ¬ close <+: c :: line := by
          rintro ⟨later, heq⟩
          exact hnone [] later (ends_nil heq.symm (List.cons_ne_nil _ _) (not_escape_cons hplain _))
        rw [deliver?_pass hplain hopen]
        apply ih line.length (Nat.lt_succ_self _) _ _ rfl
        intro hidden after hends
        exact hnone _ _ (hends.cons hplain)
      · obtain ⟨hescapes, rfl⟩ : escapes = true ∧ c = '\\' := by simpa using hplain
        rw [deliver?_escape hescapes]
        cases line with
        | nil => exact Lexicon.deliver?_nil _ _ _
        | cons d line =>
          apply ih line.length (by simp) _ _ rfl
          intro hidden after hends
          exact hnone _ _ (hends.escape hescapes)

/-- Lines in which a literal of several lines does not end are passed over. -/
theorem passage_of_not_ends {front : List Text}
    (hnone : ∀ line ∈ front, ∀ hidden after, ¬ Ends close escapes line hidden after) (before : Text)
    (lines : List Text) :
    lexicon.passage (.literal close escapes true) before (front ++ lines) =
      front.map (fun _ => ([], .literal close escapes true)) ++
        lexicon.passage (.literal close escapes true) (if front = [] then before else []) lines := by
  induction front generalizing before with
  | nil => rfl
  | cons line front ih =>
    have hline : lexicon.deliver? (.literal close escapes true) before line = some ([], .literal close escapes true) :=
      deliver?_of_not_ends (hnone line List.mem_cons_self) before
    rw [List.cons_append, Lexicon.passage_cons hline, ih fun other hmem => hnone other (List.mem_cons_of_mem _ hmem)]
    simp

/-- A literal ends at the first unescaped place where its closing mark stands, on whatever line that is: nothing is
delivered before, and behind the mark the reader is in code. On a line without such a place a literal that may span
lines goes on, and any other ends. Nothing is assumed of the marks: an empty one ends its literal at once. -/
theorem ends_at_first_close (lexicon : Lexicon) (close : Text) (escapes multiline : Bool) (before : Text) :
    (∀ front line later hidden after, front = [] ∨ multiline = true →
      (∀ other ∈ front, ∀ hidden after, ¬ Ends close escapes other hidden after) →
      First (Ends close escapes line) hidden after →
      lexicon.passage (.literal close escapes multiline) before (front ++ line :: later) =
        front.map (fun _ => ([], .literal close escapes multiline)) ++
          lexicon.passage .code ((hidden ++ close).reverse ++ if front = [] then before else []) (after :: later)) ∧
    (∀ line later, (∀ hidden after, ¬ Ends close escapes line hidden after) →
      lexicon.passage (.literal close escapes multiline) before (line :: later) =
        ([], if multiline then .literal close escapes multiline else .code) ::
          lexicon.passage (if multiline then .literal close escapes multiline else .code) [] later) ∧
    (∀ line, (∃ hidden after, First (Ends close escapes line) hidden after) ∨
      ∀ hidden after, ¬ Ends close escapes line hidden after) := by
  refine ⟨?_, ?_, ?_⟩
  · intro front line later hidden after hspans hnone hends
    rcases hspans with rfl | rfl
    · exact Lexicon.passage_congr (deliver?_of_ends hends before) later
    · rw [passage_of_not_ends hnone, Lexicon.passage_congr (deliver?_of_ends hends _)]
  · intro line later hnone
    rw [Lexicon.passage_cons (deliver?_of_not_ends hnone _)]
    cases multiline <;> rfl
  · intro line
    by_cases hsome : ∃ hidden after, Ends close escapes line hidden after
    · obtain ⟨hidden, after, hends⟩ := hsome
      exact .inl (exists_first hends)
    · exact .inr fun hidden after hends => hsome ⟨hidden, after, hends⟩

/-- A line that begins with an escaped quote. -/
def escapedQuote : Text :=
  "\\\"\" \x7b".toList

theorem first_ends_escapedQuote : First (Ends ['"'] true escapedQuote) ['\\', '"'] [' ', '{'] where
  here := ⟨⟨rfl, by decide, .escape rfl .nil⟩, by decide⟩
  first earlier later hends := by
    obtain ⟨⟨hline, -, hunescaped⟩, -⟩ := hends
    cases hunescaped with
    | nil => exact absurd (List.cons.inj hline).1 (by decide)
    | char hplain => exact absurd (List.cons.inj hline).1.symm (hplain rfl)
    | escape => simp

theorem ends_at_first_close_escapedQuote :
    First (Ends ['"'] true escapedQuote) ['\\', '"'] [' ', '{'] ∧
      Grammar.rustLexicon.passage (.literal ['"'] true true) [] ["a \\".toList, escapedQuote] =
        [([], .literal ['"'] true true), ([(3, ' '), (4, '{')], .code)] := by
  refine ⟨first_ends_escapedQuote, ?_⟩
  have hfront : ∀ other ∈ ["a \\".toList], ∀ hidden after, ¬ Ends ['"'] true other hidden after := by
    rintro other hother hidden after ⟨⟨hline, -, -⟩, -⟩
    have hquote : '"' ∈ other := by simp [hline]
    rw [List.mem_singleton.1 hother] at hquote
    exact absurd hquote (by decide)
  have hpassage := (ends_at_first_close Grammar.rustLexicon ['"'] true true []).1
    ["a \\".toList] escapedQuote [] _ _ (.inr rfl) hfront first_ends_escapedQuote
  rw [List.singleton_append] at hpassage
  rw [hpassage]
  decide

/-- Literals between an angle bracket and a backslash, with escapes. -/
def backslashLexicon : Lexicon :=
  ⟨[], none, false, [.quoted ['<'] ['\\'] true true], false, false⟩

/-- With escapes a backslash never ends a literal, although it stands at an unescaped place. -/
theorem not_ends_at_backslash :
    First (Occurs ['\\'] true "a\\b".toList) ['a'] ['b'] ∧
      backslashLexicon.passage (.literal ['\\'] true true) ['<'] ["a\\b".toList] ≠
        backslashLexicon.passage .code ['\\', 'a', '<'] [['b']] := by
  refine ⟨⟨⟨rfl, by decide, .char (by decide) .nil⟩, ?_⟩, by decide⟩
  rintro earlier later ⟨hline, -, -⟩
  cases earlier with
  | nil => exact absurd (List.cons.inj hline).1 (by decide)
  | cons c earlier => simp

end Lines

end Literal

end Outline
