import Outline.Proofs.Lexing.Literals
import Outline.Proofs.Text.Places

namespace Outline

namespace Lexicon

/-- What a reader in the given state, at a place behind `before`, delivers of the text that follows, line by line. -/
def readText (lexicon : Lexicon) (state : LexState) (before t : Text) : List (List (Nat × Char) × LexState) :=
  lexicon.passage state before (Text.restLines before t)

/-- A reader in code behind `before` goes over a literal that ends at `close`. Nothing of the literal is delivered, and
whatever follows it is read from code on. -/
def Hides (lexicon : Lexicon) (before literal close : Text) : Prop :=
  ∀ after, lexicon.readText .code before (literal ++ after) =
    List.replicate (literal.count '\n') ([], .literal close false true) ++
      lexicon.readText .code (Text.behind before literal) after

end Lexicon

namespace Literal

variable {lexicon : Lexicon} {before body after : Text} {mark : Char} {rest : Text}

section Bodies

/-- A mark that begins with a character which it does not hold again cannot begin in a text and end behind it, if the
mark itself follows the text. -/
theorem not_prefix_of_absent (hmark : mark ∉ rest) {tail : Text} (htail : tail ≠ [])
    (hnone : ¬ mark :: rest <:+: tail) (after : Text) : ¬ mark :: rest <+: tail ++ (mark :: rest ++ after) := by
  intro hbegins
  obtain ⟨c, tail, rfl⟩ := List.exists_cons_of_ne_nil htail
  rw [List.cons_append, List.cons_prefix_cons] at hbegins
  obtain ⟨rfl, hrest⟩ := hbegins
  rw [List.cons_append] at hrest
  have hinside := Text.isPrefix_of_isPrefix_append hmark hrest
  exact hnone (List.cons_prefix_cons.2 ⟨rfl, hinside⟩).isInfix

theorem unescaped_of_no_escapes (t : Text) : Unescaped false t := by
  induction t with
  | nil => exact .nil
  | cons c t ih => exact .char (fun hescapes => absurd hescapes Bool.false_ne_true) ih

/-- Behind a body without its closing mark a raw literal ends, and not before. -/
theorem first_ends_of_absent (hmark : mark ∉ rest) (hnone : ¬ mark :: rest <:+: body) (after : Text) :
    First (Ends (mark :: rest) false (body ++ (mark :: rest ++ after))) body after where
  here := ⟨⟨rfl, by simp, unescaped_of_no_escapes body⟩, by simp⟩
  first earlier later hends := by
    by_contra hshort
    obtain ⟨⟨hline, -, -⟩, -⟩ := hends
    obtain ⟨tail, rfl⟩ : earlier <+: body :=
      List.prefix_of_prefix_length_le ⟨_, hline.symm⟩ (List.prefix_append _ _) (by omega)
    rw [List.append_assoc, List.append_cancel_left_eq] at hline
    have htail : tail ≠ [] := by
      rintro rfl
      simp at hshort
    apply not_prefix_of_absent hmark htail _ after ⟨later, hline.symm⟩
    exact fun hwithin => hnone (hwithin.trans (List.suffix_append _ _).isInfix)

theorem not_ends_of_absent {close line : Text} {escapes : Bool} (hnone : ¬ close <:+: line) (hidden after : Text) :
    ¬ Ends close escapes line hidden after := by
  rintro ⟨⟨hline, -, -⟩, -⟩
  apply hnone
  exact ⟨hidden, after, by rw [hline, List.append_assoc]⟩

/-- Inside a raw literal a reader goes over the body and the closing mark. -/
theorem readText_body (hmark : mark ∉ rest) (hclose : Text.Inline (mark :: rest)) (hnone : ¬ mark :: rest <:+: body)
    (before after : Text) :
    lexicon.readText (.literal (mark :: rest) false true) before (body ++ (mark :: rest ++ after)) =
      List.replicate (body.count '\n') ([], .literal (mark :: rest) false true) ++
        lexicon.readText .code (Text.behind before (body ++ mark :: rest)) after := by
  -- from one line feed of the body to the next
  induction hfeeds : body.count '\n' generalizing body before with
  | zero =>
    have hline : Text.Inline (body ++ mark :: rest) := hclose.append_left (List.count_eq_zero.1 hfeeds)
    obtain ⟨line, more, hhere, hbehind, -⟩ := Text.exists_restLines_append hline before after
    have hdeliver : lexicon.deliver? (.literal (mark :: rest) false true) before (body ++ (mark :: rest ++ line)) =
        lexicon.deliver? .code ((body ++ mark :: rest).reverse ++ before) line :=
      deliver?_of_ends (first_ends_of_absent hmark hnone line) before
    rw [← List.append_assoc, Lexicon.readText, hhere, Lexicon.readText, hbehind, List.append_assoc,
      Lexicon.passage_congr hdeliver, Text.behind_of_not_mem hline.feed]
    rfl
  | succ feeds ih =>
    have hmem : '\n' ∈ body := List.count_pos_iff.1 (by omega)
    obtain ⟨line, body, rfl, hline⟩ := List.eq_append_cons_of_mem hmem
    have hopen : ¬ mark :: rest <:+: (Text.dropReturn line.reverse).reverse := by
      intro hwithin
      have hbegins := List.reverse_prefix.2 (Text.dropReturn_suffix line.reverse)
      rw [List.reverse_reverse] at hbegins
      exact hnone ((hwithin.trans hbegins.isInfix).trans (List.prefix_append _ _).isInfix)
    have hlater : ¬ mark :: rest <:+: body := fun hwithin =>
      hnone ((hwithin.trans (List.suffix_cons _ _).isInfix).trans (List.suffix_append _ _).isInfix)
    have hcount : body.count '\n' = feeds := by
      rw [List.count_append, List.count_eq_zero.2 hline, List.count_cons_self] at hfeeds
      omega
    have hrest := ih hlater [] hcount
    rw [Lexicon.readText, Text.restLines_nil] at hrest
    have hbehind : Text.behind before (line ++ '\n' :: body ++ mark :: rest) =
        Text.behind [] (body ++ mark :: rest) := by
      rw [List.append_assoc, Text.behind_append, List.cons_append, Text.behind_feed]
    rw [hbehind, Lexicon.readText, List.append_assoc, List.cons_append, Text.restLines_append_feed hline,
      Lexicon.passage_cons (deliver?_of_not_ends (not_ends_of_absent hopen) _)]
    exact congrArg _ hrest

end Bodies

section Openings

variable {opening tag : Text} {hashes : Nat}

/-- A reader in code that finds the opening of a literal goes over it and is in the literal. -/
theorem readText_opening {state : LexState} (hopening : Text.Inline opening)
    (hmove : ∀ line, line <+: after → lexicon.codeMove before (opening ++ line) = .token opening.length state) :
    lexicon.readText .code before (opening ++ after) = lexicon.readText state (Text.behind before opening) after := by
  obtain ⟨line, more, hhere, hbehind, hline⟩ := Text.exists_restLines_append hopening before after
  have hopens : lexicon.move .code before (opening ++ line) = .token opening.length state := hmove line hline
  have hdeliver := Lexicon.deliver?_token hopens (List.length_pos_iff.2 hopening.ne_nil)
    (List.append_ne_nil_of_left_ne_nil hopening.ne_nil line)
  rw [List.take_left, List.drop_left] at hdeliver
  rw [Lexicon.readText, hhere, Lexicon.passage_congr hdeliver, Lexicon.readText, hbehind,
    Text.behind_of_not_mem hopening.feed]

/-- A literal whose opening is recognised and whose body does not hold the closing mark is hidden. -/
theorem hides_of_opening (hopening : Text.Inline opening) (hmark : mark ∉ rest) (hclose : Text.Inline (mark :: rest))
    (hnone : ¬ mark :: rest <:+: body)
    (hmove : ∀ line after, line <+: body ++ (mark :: rest ++ after) →
      lexicon.codeMove before (opening ++ line) = .token opening.length (.literal (mark :: rest) false true)) :
    lexicon.Hides before (opening ++ (body ++ mark :: rest)) (mark :: rest) := by
  intro after
  have hcount : (opening ++ (body ++ mark :: rest)).count '\n' = body.count '\n' := by
    rw [List.count_append, List.count_append, List.count_eq_zero.2 hopening.feed, List.count_eq_zero.2 hclose.feed]
    omega
  have hlater := fun line => hmove line after
  rw [hcount, List.append_assoc, List.append_assoc, readText_opening hopening hlater,
    readText_body hmark hclose hnone, ← Text.behind_append]

/-- Where no comment begins, the first rule for literals is the first to decide. -/
theorem codeMove_of_open? {line : Text} {length : Nat} {next : LexState} {rule : StringRule} {rules : List StringRule}
    (hblock : lexicon.blockCommentOpener? line = none) (hcomment : lexicon.startsLineComment line = false)
    (hrules : lexicon.strings = rule :: rules) (hopen : rule.open? before line = some (length, next)) :
    lexicon.codeMove before line = .token length next := by
  rw [Lexicon.codeMove, hblock, hcomment, hrules, List.findSome?_cons, hopen]
  rfl

/-- Of the openers of a rule the first that stands here and has its fence counts. -/
theorem open?_fenced {line opener : Text} (front : List Text) {later : List Text} {minHashes : Nat} {triple : Bool}
    {found : Nat × LexState} (hfront : ∀ other ∈ front, ¬ other <+: line)
    (hopen : StringRule.openFence? before line minHashes triple opener = some found) :
    StringRule.open? before line (.fenced (front ++ opener :: later) minHashes triple) = some found := by
  have hnone : front.findSome? (StringRule.openFence? before line minHashes triple) = none := by
    rw [List.findSome?_eq_none_iff]
    intro other hother
    rw [StringRule.openFence?, Text.strip?_eq_none (hfront other hother)]
  rw [StringRule.open?, List.findSome?_append, hnone, Option.none_or, List.findSome?_cons, hopen]

/-- A fence right after its opener begins a raw literal, unless an identifier comes before the opener. -/
theorem openFence?_eq_some {opener : Text} {minHashes : Nat} {triple : Bool}
    (hname : opener = [] ∨ nameBefore before = []) (hhashes : minHashes ≤ hashes)
    (htriple : triple = true → ¬ ['"', '"'] <+: after) :
    StringRule.openFence? before (opener ++ List.replicate hashes '#' ++ '"' :: after) minHashes triple opener =
      some (opener.length + hashes + 1, .literal ('"' :: List.replicate hashes '#') false true) := by
  have hguard : (!opener.isEmpty && !(nameBefore before).isEmpty) = false := by
    rcases hname with rfl | hname
    · rfl
    · rw [hname, List.isEmpty_nil, Bool.not_true, Bool.and_false]
  have hquote : (('"' : Char) == '#') = false := by decide
  have hfence : (List.replicate hashes '#' ++ '"' :: after).takeWhile (· == '#') = List.replicate hashes '#' := by
    simp [hquote]
  have hbody : (List.replicate hashes '#' ++ '"' :: after).dropWhile (· == '#') = '"' :: after := by
    simp [hquote]
  have honce : (triple && Text.startsWith ['"', '"', '"'] ('"' :: after)) = false := by
    cases triple with
    | false => rfl
    | true =>
      rw [Bool.true_and, Bool.eq_false_iff, ne_eq, Text.startsWith_iff, List.cons_prefix_cons]
      exact fun hbegins => htriple rfl hbegins.2
  have hstarts : Text.startsWith ['"'] ('"' :: after) = true := Text.startsWith_iff.2 ⟨after, rfl⟩
  rw [StringRule.openFence?, List.append_assoc, Text.strip?_append]
  simp only [hguard, hfence, hbody, honce, hstarts, List.length_replicate, Nat.not_lt.2 hhashes, Bool.false_eq_true,
    if_false, if_true]

theorem inline_fence (hashes : Nat) : Text.Inline ('"' :: List.replicate hashes '#') := by
  apply Text.inline_of_forall (List.cons_ne_nil _ _)
  rw [List.forall_mem_cons]
  refine ⟨by decide, fun c hc => ?_⟩
  rw [List.eq_of_mem_replicate hc]
  decide

theorem inline_fence_opening {opener : Text} (hopener : ∀ c ∈ opener, c ≠ '\n' ∧ c ≠ '\r') (hashes : Nat) :
    Text.Inline (opener ++ List.replicate hashes '#' ++ ['"']) := by
  apply Text.inline_of_forall (List.append_ne_nil_of_right_ne_nil _ (List.cons_ne_nil _ _))
  rw [List.forall_mem_append, List.forall_mem_append, List.forall_mem_singleton]
  refine ⟨⟨hopener, fun c hc => ?_⟩, by decide⟩
  rw [List.eq_of_mem_replicate hc]
  decide

/-- A tag in parentheses begins a raw literal behind an encoding mark. -/
theorem openTag?_eq_some (hname : nameBefore before ∈ StringRule.encodingMarks) (hsize : Text.byteSize tag ≤ 16)
    (htag : ∀ c ∈ tag, isBlank c = false ∧ c ≠ '(' ∧ c ≠ ')' ∧ c ≠ '\\') :
    StringRule.openTag? before ('R' :: '"' :: (tag ++ '(' :: after)) =
      some (tag.length + 3, .literal (')' :: tag ++ ['"']) false true) := by
  have hstrip : Text.strip? ['R', '"'] ('R' :: '"' :: (tag ++ '(' :: after)) = some (tag ++ '(' :: after) :=
    Text.strip?_append ['R', '"'] _
  have hcut : Text.cut? ['('] (tag ++ '(' :: after) = some (tag, after) :=
    Text.cut?_append_cons (fun hmem => (htag _ hmem).2.1 rfl) after
  have hplain : tag.any (fun c => isBlank c || c == ')' || c == '\\') = false := by
    rw [List.any_eq_false]
    intro c hc
    simp [htag c hc]
  simp only [StringRule.openTag?, hstrip, hcut, hplain, List.contains_iff_mem.2 hname, Nat.not_lt.2 hsize]
  rfl

theorem ne_lineEnd_of_not_blank {c : Char} (hblank : isBlank c = false) : c ≠ '\n' ∧ c ≠ '\r' := by
  refine ⟨?_, ?_⟩
  · rintro rfl
    exact absurd hblank (by decide)
  · rintro rfl
    exact absurd hblank (by decide)

theorem inline_tag_close (htag : ∀ c ∈ tag, isBlank c = false) : Text.Inline (')' :: (tag ++ ['"'])) := by
  apply Text.inline_of_forall (List.cons_ne_nil _ _)
  rw [List.forall_mem_cons, List.forall_mem_append, List.forall_mem_singleton]
  exact ⟨by decide, fun c hc => ne_lineEnd_of_not_blank (htag c hc), by decide⟩

theorem inline_tag_opening (htag : ∀ c ∈ tag, isBlank c = false) : Text.Inline (['R', '"'] ++ tag ++ ['(']) := by
  apply Text.inline_of_forall (List.append_ne_nil_of_right_ne_nil _ (List.cons_ne_nil _ _))
  rw [List.forall_mem_append, List.forall_mem_append, List.forall_mem_singleton]
  exact ⟨⟨by simp, fun c hc => ne_lineEnd_of_not_blank (htag c hc)⟩, by decide⟩

end Openings

section Languages

variable {opener tag : Text} {hashes : Nat}

/-- A raw literal between fences of number signs. -/
def fenced (opener : Text) (hashes : Nat) (body : Text) : Text :=
  opener ++ List.replicate hashes '#' ++ ['"'] ++ (body ++ '"' :: List.replicate hashes '#')

/-- A raw literal between parentheses with a tag. -/
def tagged (tag body : Text) : Text :=
  ['R', '"'] ++ tag ++ ['('] ++ (body ++ ')' :: (tag ++ ['"']))

theorem nameBefore_eq_nil (hbefore : ∀ c ∈ before.head?, isNameChar c = false) : nameBefore before = [] := by
  cases before with
  | nil => rfl
  | cons c before => exact List.takeWhile_cons_of_neg (by simp [hbefore c rfl])

theorem hides_fenced_rust (hopener : opener ∈ [['r'], ['b', 'r'], ['c', 'r']])
    (hbefore : ∀ c ∈ before.head?, isNameChar c = false)
    (hnone : ¬ '"' :: List.replicate hashes '#' <:+: body) :
    Grammar.rustLexicon.Hides before (fenced opener hashes body) ('"' :: List.replicate hashes '#') := by
  simp only [List.mem_cons, List.not_mem_nil, or_false] at hopener
  have hplain : ∀ c ∈ opener, c ≠ '\n' ∧ c ≠ '\r' := by
    rcases hopener with rfl | rfl | rfl <;> simp
  apply hides_of_opening (inline_fence_opening hplain hashes) (by simp [List.mem_replicate]) (inline_fence hashes) hnone
  intro line after hline
  have hopen : StringRule.openFence? before (opener ++ List.replicate hashes '#' ++ '"' :: line) 0 false opener =
      some (opener.length + hashes + 1, .literal ('"' :: List.replicate hashes '#') false true) :=
    openFence?_eq_some (.inr (nameBefore_eq_nil hbefore)) (Nat.zero_le hashes)
      (fun htriple => absurd htriple Bool.false_ne_true)
  rw [List.length_append, List.length_append, List.length_replicate, List.append_assoc, List.singleton_append]
  -- the openers in front of this one begin with other letters
  rcases hopener with rfl | rfl | rfl
  · apply codeMove_of_open? rfl rfl rfl
    exact open?_fenced [['b', 'r'], ['c', 'r']] (by simp) hopen
  · apply codeMove_of_open? rfl rfl rfl
    exact open?_fenced [] (by simp) hopen
  · apply codeMove_of_open? rfl rfl rfl
    exact open?_fenced [['b', 'r']] (by simp) hopen

theorem hides_fenced_swift (hhashes : 1 ≤ hashes) (hbody : ¬ ['"'] <+: body)
    (hnone : ¬ '"' :: List.replicate hashes '#' <:+: body) :
    Grammar.swiftLexicon.Hides before (fenced [] hashes body) ('"' :: List.replicate hashes '#') := by
  obtain ⟨fewer, rfl⟩ := Nat.exists_eq_add_of_le' hhashes
  apply hides_of_opening (inline_fence_opening (by simp) (fewer + 1)) (by simp [List.mem_replicate])
    (inline_fence (fewer + 1)) hnone
  intro line after hline
  have hsingle : ¬ ['"', '"'] <+: line := by
    intro hbegins
    have htwo := hbegins.trans hline
    cases body with
    | nil => simp [List.replicate_succ] at htwo
    | cons c body => simp_all
  have hopen : StringRule.openFence? before ([] ++ List.replicate (fewer + 1) '#' ++ '"' :: line) 1 true [] =
      some (0 + (fewer + 1) + 1, .literal ('"' :: List.replicate (fewer + 1) '#') false true) :=
    openFence?_eq_some (.inl rfl) hhashes (fun _ => hsingle)
  rw [List.length_append, List.length_append, List.length_replicate, List.append_assoc, List.singleton_append]
  apply codeMove_of_open? rfl rfl rfl
  exact open?_fenced [] (by simp) hopen

theorem hides_tagged_cpp (hname : nameBefore before ∈ StringRule.encodingMarks) (hsize : Text.byteSize tag ≤ 16)
    (htag : ∀ c ∈ tag, isBlank c = false ∧ c ≠ '(' ∧ c ≠ ')' ∧ c ≠ '\\')
    (hnone : ¬ ')' :: (tag ++ ['"']) <:+: body) :
    Grammar.cppLexicon.Hides before (tagged tag body) (')' :: (tag ++ ['"'])) := by
  have hblank : ∀ c ∈ tag, isBlank c = false := fun c hc => (htag c hc).1
  have hmark : ')' ∉ tag ++ ['"'] := by
    rw [List.mem_append, not_or]
    exact ⟨fun hmem => (htag _ hmem).2.2.1 rfl, by decide⟩
  apply hides_of_opening (inline_tag_opening hblank) hmark (inline_tag_close hblank) hnone
  intro line after hline
  rw [List.append_assoc, List.append_assoc, List.singleton_append]
  apply codeMove_of_open? rfl rfl rfl
  have hlength : (['R', '"'] ++ tag ++ ['(']).length = tag.length + 3 := by simp
  rw [hlength]
  exact openTag?_eq_some hname hsize htag

/-- A raw literal is hidden whatever its fence or tag is, and whatever quotes, backslashes, braces, comment marks and
line feeds its body holds, as long as the body does not hold the closing mark. -/
theorem raw_literals_hidden :
    (∀ opener ∈ [['r'], ['b', 'r'], ['c', 'r']], ∀ hashes before body, (∀ c ∈ before.head?, isNameChar c = false) →
      ¬ '"' :: List.replicate hashes '#' <:+: body →
      Grammar.rustLexicon.Hides before (fenced opener hashes body) ('"' :: List.replicate hashes '#')) ∧
    (∀ tag before body, (∀ c ∈ tag, isBlank c = false ∧ c ≠ '(' ∧ c ≠ ')' ∧ c ≠ '\\') → Text.byteSize tag ≤ 16 →
      (nameBefore before).reverse ∈ [[], ['u', '8'], ['L'], ['u'], ['U']] → ¬ ')' :: (tag ++ ['"']) <:+: body →
      Grammar.cppLexicon.Hides before (tagged tag body) (')' :: (tag ++ ['"']))) ∧
    (∀ hashes before body, 1 ≤ hashes → ¬ ['"'] <+: body → ¬ '"' :: List.replicate hashes '#' <:+: body →
      Grammar.swiftLexicon.Hides before (fenced [] hashes body) ('"' :: List.replicate hashes '#')) := by
  refine ⟨?_, ?_, ?_⟩
  · intro opener hopener hashes before body hbefore hnone
    exact hides_fenced_rust hopener hbefore hnone
  · intro tag before body htag hsize hname hnone
    refine hides_tagged_cpp ?_ hsize htag hnone
    have hmem := List.mem_map_of_mem (f := List.reverse) hname
    rwa [List.reverse_reverse] at hmem
  · intro hashes before body hhashes hbody hnone
    exact hides_fenced_swift hhashes hbody hnone

/-- Two lines with a backslash, a quote, a brace and marks of comments. -/
def motleyBody : Text :=
  "\\ \" \x7b\n*/ \x7d //".toList

theorem raw_literals_hidden_motleyBody :
    ¬ ['"', '#'] <:+: motleyBody ∧
      Grammar.rustLexicon.readText .code [] (fenced ['b', 'r'] 1 motleyBody ++ [';']) =
        [([], .literal ['"', '#'] false true), ([(9, ';')], .code)] ∧
    ¬ [')', '-', '"'] <:+: motleyBody ∧
      Grammar.cppLexicon.readText .code ['8', 'u'] (tagged ['-'] motleyBody ++ [';']) =
        [([], .literal [')', '-', '"'] false true), ([(10, ';')], .code)] ∧
    ¬ ['"'] <+: motleyBody ∧ ¬ ['"', '#', '#'] <:+: motleyBody ∧
      Grammar.swiftLexicon.readText .code ['x'] (fenced [] 2 motleyBody ++ [';']) =
        [([], .literal ['"', '#', '#'] false true), ([(10, ';')], .code)] := by
  have hrust := raw_literals_hidden.1 ['b', 'r'] (by decide) 1 [] motleyBody (by simp) (by decide) [';']
  have hcpp := raw_literals_hidden.2.1 ['-'] ['8', 'u'] motleyBody (List.forall_mem_singleton.2 (by decide)) (by decide)
    (by decide) (by decide) [';']
  have hswift := raw_literals_hidden.2.2 2 ['x'] motleyBody (by decide) (by decide) (by decide) [';']
  refine ⟨by decide, ?_, by decide, ?_, by decide, by decide, ?_⟩
  · rw [hrust]
    decide
  · rw [hcpp]
    decide
  · rw [hswift]
    decide

end Languages

end Literal

end Outline
