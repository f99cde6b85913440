import Outline.Imports
import Outline.Proofs.Imports.Distinct
import Outline.Proofs.Imports.Expansion
import Outline.Proofs.Imports.Reading
import Outline.Proofs.Pattern.Preferred
import Outline.Proofs.Text.Lines

namespace Outline

namespace Imports

open Text

/-- No statement takes more than `n` lines. One that has got lines added to its first one takes the next line as
well. -/
def SpansAtMost (n : Nat) (lines : List Text) : Prop :=
  ∀ index < lines.length, ∀ unfinished ∈ openStatement? (lines.take index), unfinished.2 + 2 ≤ n

instance (n : Nat) (lines : List Text) : Decidable (SpansAtMost n lines) :=
  inferInstanceAs (Decidable (∀ index < lines.length, ∀ unfinished ∈ openStatement? (lines.take index), _))

/-- A comment on a line of its own behind `front` does not change the imports, whatever it says and whatever follows,
as long as no statement takes more than 200 lines. -/
def CommentsInvisible (front : Text) : Prop :=
  ∀ (comment : Text) (rest : List Text) (t t' : Text), startsWith ['/', '/'] (trim comment) = true →
    lines t = lines front ++ comment :: rest → lines t' = lines front ++ rest → SpansAtMost 200 (lines t) →
    importsOf .rust t = importsOf .rust t'

section Open

variable {statement line : Text} {added : Nat} {open? : Option (Text × Nat)}

/-- What a line leaves open has no semicolon. -/
theorem not_mem_of_rustStep (hopen : (rustStep open? line).2 = some (statement, added)) : ';' ∉ statement := by
  intro hmem
  have hend := contains_iff_mem.2 hmem
  cases open? with
  | some unfinished =>
    rw [rustStep] at hopen
    split at hopen
    · contradiction
    · next hcond =>
      obtain ⟨rfl, -⟩ := Prod.mk.inj (Option.some.inj hopen)
      rw [hend, Bool.true_or] at hcond
      exact hcond rfl
  | none =>
    rw [rustStep] at hopen
    split at hopen
    · contradiction
    · generalize itemAtStart? rustExternCrate (trim line) = crate?, itemAtStart? rustUse (trim line) = use? at hopen
      cases crate? with
      | some name => contradiction
      | none =>
        cases use? with
        | none => contradiction
        | some found =>
          dsimp only at hopen
          split at hopen
          · contradiction
          · next hcond =>
            obtain ⟨rfl, -⟩ := Prod.mk.inj (Option.some.inj hopen)
            exact hcond hend

theorem not_mem_of_openStatement? {lines : List Text} (hopen : openStatement? lines = some (statement, added)) :
    ';' ∉ statement := by
  obtain rfl | ⟨front, line, rfl⟩ := List.eq_nil_or_concat lines
  · contradiction
  · rw [openStatement?, List.concat_eq_append, stateAfter_concat] at hopen
    exact not_mem_of_rustStep hopen

/-- A semicolon on a line ends the statement that is open. -/
theorem rustStep_of_mem (hline : ';' ∈ trim line) (statement : Text) (added : Nat) :
    rustStep (some (statement, added)) line = (rustPaths (statement ++ ' ' :: trim line), none) := by
  have hend : contains [';'] (statement ++ ' ' :: trim line) = true :=
    contains_iff_mem.2 (List.mem_append_right _ (List.mem_cons_of_mem _ hline))
  rw [rustStep, hend, Bool.true_or, if_pos rfl]

/-- A line with a semicolon behind an open statement is read with it, and what follows is read by itself. -/
theorem rustNames_of_open {front : List Text} (hopen : openStatement? front = some (statement, added))
    (hline : ';' ∈ trim line) (rest : List Text) :
    rustNames none (front ++ line :: rest) =
      namesMet rustStep none front ++ (rustPaths (statement ++ ' ' :: trim line) ++ rustNames none rest) := by
  change stateAfter rustStep none front = _ at hopen
  rw [readsBy_rustStep.append, hopen, readsBy_rustStep, rustStep_of_mem hline]

theorem rustStep_comment (hcomment : startsWith ['/', '/'] (trim line) = true) : rustStep none line = ([], none) := by
  rw [rustStep, if_pos hcomment]

end Open

section Paths

variable {front tail statement rest name : Text} {c d : Char}

/-- What stands before a character in a part of two texts is in the first one, if the second has no such character. -/
theorem count_le_of_isInfix (hwithin : front ++ d :: tail <:+: statement ++ rest) (hrest : d ∉ rest) :
    front.count c ≤ statement.count c := by
  obtain ⟨before, after, hall⟩ := hwithin
  have hsplit : (before ++ front) ++ d :: (tail ++ after) = statement ++ rest := by
    rw [← hall]
    simp
  rcases List.append_eq_append_iff.1 hsplit with ⟨more, hstatement, -⟩ | ⟨more, -, hbehind⟩
  · rw [hstatement, List.count_append, List.count_append]
    omega
  · rw [hbehind] at hrest
    exact absurd (List.mem_append_right _ List.mem_cons_self) hrest

/-- An opening brace without a closing one behind a statement keeps what it is put behind out of the names. -/
theorem count_le_of_mem_rustPaths (hstatement : ';' ∉ statement) (hrest : ';' ∉ rest) (hopen : '{' ∈ rest)
    (hclose : '}' ∉ rest) (hc : c ≠ ':') (hname : name ∈ rustPaths (statement ++ rest ++ [';'])) :
    name.count c ≤ statement.count c := by
  have hend : ';' ∉ statement ++ rest := by
    rw [List.mem_append, not_or]
    exact ⟨hstatement, hrest⟩
  have hupTo : upTo [';'] (statement ++ rest ++ [';']) = statement ++ rest := by
    rw [upTo, cut?_append_cons hend]
    rfl
  obtain ⟨tree, htree⟩ : ∃ tree, tree = stripAll [':', ':'] (trim (statement ++ rest)) := ⟨_, rfl⟩
  have hwithin : trim tree <:+: statement ++ rest := by
    rw [htree]
    exact (trim_isInfix _).trans ((stripAll_isSuffix _ _).isInfix.trans (trim_isInfix _))
  have hbrace : '{' ∈ trim tree := by
    apply mem_trim _ (by decide)
    rw [htree]
    apply mem_stripAll _ (by decide)
    exact mem_trim (List.mem_append_right _ hopen) (by decide)
  have hsep : c ∉ [':', ':'] := by simp [hc]
  rw [rustPaths, hupTo, ← htree] at hname
  obtain ⟨front, tail, htrim, hcount⟩ := exists_count_le_of_mem hsep hbrace hname
  rw [htrim] at hwithin
  have hfront := count_le_of_isInfix (c := c) hwithin hclose
  rw [List.count_nil] at hcount
  omega

end Paths

section Crates

/-- A name of the same letter again and again. -/
def longName (n : Nat) : Text :=
  List.replicate (n + 1) 'x'

/-- The words that link a crate, with a brace behind them that is not closed. -/
def crateHead (name : Text) : Text :=
  "extern crate ".toList ++ (name ++ ['{'])

/-- A line that links a crate and that would end a statement which it is put behind. -/
def crateLine (name : Text) : Text :=
  crateHead name ++ [';']

theorem not_mem_crateHead {c : Char} (hc : c ∉ "extern crate \x7b".toList) (n : Nat) : c ∉ crateHead (longName n) := by
  obtain ⟨hwords, hbrace⟩ : c ∉ "extern crate ".toList ∧ c ∉ ['{'] := not_or.1 (mt List.mem_append.2 hc)
  have hname : c ∉ longName n := fun hmem => hc (List.eq_of_mem_replicate hmem ▸ by decide)
  unfold crateHead
  rw [List.mem_append, List.mem_append, not_or, not_or]
  exact ⟨hwords, hname, hbrace⟩

theorem solid_longName (n : Nat) : Solid (longName n) := by
  apply solid_of_forall (by simp [longName])
  intro c hc
  obtain rfl := List.eq_of_mem_replicate hc
  decide

theorem solid_crateLine (name : Text) : Solid (crateLine name) :=
  ⟨⟨'e', "xtern crate ".toList ++ (name ++ ['{']) ++ [';'], rfl, by decide⟩, crateHead name, ';', rfl, by decide⟩

theorem crateLine_eq (name : Text) : crateLine name = "extern crate ".toList ++ (name ++ ['{', ';']) := by
  unfold crateLine crateHead
  rw [List.append_assoc, List.append_assoc, List.singleton_append]

/-- The name of the crate is read up to the brace. -/
theorem itemAtStart?_crateLine (n : Nat) :
    itemAtStart? rustExternCrate (crateLine (longName n)) = some (longName n) := by
  obtain ⟨name, hname⟩ : ∃ name, name = longName n := ⟨_, rfl⟩
  obtain ⟨start, hstart⟩ : ∃ start, start = Cursor.start (crateLine name) := ⟨_, rfl⟩
  obtain ⟨middle, hmiddle⟩ : ∃ middle,
    middle = start.skip "extern ".toList ("crate ".toList ++ (name ++ ['{', ';'])) := ⟨_, rfl⟩
  obtain ⟨behind, hbehind⟩ : ∃ behind, behind = middle.skip "crate ".toList (name ++ ['{', ';']) := ⟨_, rfl⟩
  have hlink : Pattern.Prefers (.word "extern") start middle := by
    rw [hmiddle]
    apply Pattern.prefers_word
    · rw [hstart, crateLine_eq]
      rfl
    · exact ⟨'c', "rate ".toList ++ (name ++ ['{', ';']), rfl, by decide⟩
  have hcrate : Pattern.Prefers (.word "crate") middle behind := by
    rw [hbehind]
    apply Pattern.prefers_word
    · rw [hmiddle]
      rfl
    · rw [hname]
      exact (solid_longName n).starts.append _
  have hident : Pattern.Prefers .ident behind (behind.skip name ['{', ';']) := by
    have hskip : behind.skip name ['{', ';'] =
        (behind.skip ['x'] (List.replicate n 'x' ++ ['{', ';'])).skip (List.replicate n 'x') ['{', ';'] := by
      rw [hname, longName, List.replicate_succ]
      simp [Cursor.skip, Nat.add_assoc, Nat.add_comm 1]
    have hfirst : behind.rest = 'x' :: (List.replicate n 'x' ++ ['{', ';']) := by
      rw [hbehind, hname]
      rfl
    rw [hskip]
    apply Pattern.Prefers.seq
    · exact Pattern.prefers_one hfirst (by decide)
    · apply Pattern.prefers_run rfl
      · intro c hc
        obtain rfl := List.eq_of_mem_replicate hc
        decide
      · intro c hc
        obtain rfl := Option.some.inj hc
        decide
  have hmatch : rustExternCrate.matchStart? (crateLine name) = _ := hstart ▸ (hlink.seq hcrate).seq hident.group
  rw [← hname, itemAtStart?, hmatch]
  exact Pattern.text?_remember_skip .item behind name ['{', ';']

theorem rustStep_crateLine (n : Nat) : rustStep none (crateLine (longName n)) = ([longName n], none) := by
  have hcode : startsWith ['/', '/'] (crateLine (longName n)) = false := rfl
  rw [rustStep, (solid_crateLine _).trim, hcode, itemAtStart?_crateLine]
  rfl

theorem lines_crateLine (n : Nat) : lines (crateLine (longName n)) = [crateLine (longName n)] := by
  apply lines_of_not_mem (solid_crateLine _).ends.ne_nil
  rw [crateLine, List.mem_append, not_or]
  exact ⟨not_mem_crateHead (by decide) n, by decide⟩

theorem mem_trim_crateLine (name : Text) : ';' ∈ trim (crateLine name) := by
  rw [(solid_crateLine name).trim]
  exact List.mem_append_right _ (List.mem_singleton_self _)

end Crates

section Places

variable {front : Text} {statement : Text} {added : Nat}

/-- Between statements a comment is passed over. -/
theorem commentsInvisible_of_none (hnone : openStatement? (lines front) = none) : CommentsInvisible front := by
  intro comment rest t t' hcomment ht ht' _
  have hstep : rustNames none (comment :: rest) = rustNames none rest := by
    rw [readsBy_rustStep, rustStep_comment hcomment, List.nil_append]
  change stateAfter rustStep none (lines front) = none at hnone
  change distinct (rustNames none (lines t)) = distinct (rustNames none (lines t'))
  rw [ht, ht', readsBy_rustStep.append, readsBy_rustStep.append, hnone, hstep]

/-- A comment that is nothing but a semicolon. -/
def endingComment : Text :=
  ['/', '/', ';']

theorem spansAtMost_endingComment {lines : List Text} (hspans : SpansAtMost 200 (lines ++ [[]]))
    (hopen : openStatement? lines = some (statement, added)) (line : Text) :
    SpansAtMost 200 (lines ++ [endingComment, line]) := by
  intro index hindex unfinished hunfinished
  rw [List.length_append, List.length_cons, List.length_singleton] at hindex
  by_cases hlast : index ≤ lines.length
  · apply hspans index
    · rw [List.length_append, List.length_singleton]
      omega
    · rw [List.take_append_of_le_length hlast] at hunfinished ⊢
      exact hunfinished
  · have hbefore : (lines ++ [endingComment, line]).take index = lines ++ [endingComment] := by
      have hnext : index = lines.length + 1 := by omega
      rw [hnext, List.take_length_add_append]
      rfl
    change stateAfter rustStep none lines = _ at hopen
    rw [hbefore, openStatement?, stateAfter_concat, hopen, rustStep_of_mem (by decide)] at hunfinished
    contradiction

/-- A name that is longer than what is open and what was met is not met behind the statement. -/
theorem longName_not_mem {met : List Text} {n : Nat} (hopen : ';' ∉ statement)
    (hlong : statement.count 'x' + met.flatten.count 'x' ≤ n) :
    longName n ∉ distinct (met ++ rustPaths (statement ++ ' ' :: crateLine (longName n))) := by
  intro hmem
  obtain ⟨-, name, hname, htrim⟩ := mem_distinct.1 hmem
  have hcount := (trim_sublist name).count_le 'x'
  rw [htrim, longName, List.count_replicate_self] at hcount
  rcases List.mem_append.1 hname with hname | hname
  · have hbefore := (List.sublist_flatten_of_mem hname).count_le 'x'
    omega
  · have hline : statement ++ ' ' :: crateLine (longName n) =
        statement ++ (' ' :: crateHead (longName n)) ++ [';'] := by
      rw [crateLine, List.append_assoc, List.cons_append]
    have hend : ';' ∉ ' ' :: crateHead (longName n) :=
      List.not_mem_cons_of_ne_of_not_mem (by decide) (not_mem_crateHead (by decide) n)
    have hclose : '}' ∉ ' ' :: crateHead (longName n) :=
      List.not_mem_cons_of_ne_of_not_mem (by decide) (not_mem_crateHead (by decide) n)
    have hbrace : '{' ∈ ' ' :: crateHead (longName n) :=
      List.mem_cons_of_mem _ (List.mem_append_right _ (List.mem_append_right _ (List.mem_singleton_self _)))
    have hx : 'x' ≠ ':' := by decide
    rw [hline] at hname
    have hafter := count_le_of_mem_rustPaths hopen hend hbrace hclose hx hname
    omega

/-- While a statement is open a comment may end it, so that what follows is read by itself. -/
theorem not_commentsInvisible_of_open (hfront : EndsLine front) (hspans : SpansAtMost 200 (lines front ++ [[]]))
    (hopen : openStatement? (lines front) = some (statement, added)) : ¬ CommentsInvisible front := by
  intro hinvisible
  obtain ⟨met, hmet⟩ : ∃ met, met = namesMet rustStep none (lines front) := ⟨_, rfl⟩
  -- a crate with a longer name than what was read so far can hold: it is met behind the comment only
  obtain ⟨n, hn⟩ : ∃ n, n = statement.count 'x' + met.flatten.count 'x' := ⟨_, rfl⟩
  obtain ⟨line, hline⟩ : ∃ line, line = crateLine (longName n) := ⟨_, rfl⟩
  have hone : lines line = [line] := hline ▸ lines_crateLine n
  have ht : lines (front ++ (endingComment ++ '\n' :: line)) = lines front ++ [endingComment, line] := by
    rw [hfront.lines_append, ← hone]
    rfl
  have ht' : lines (front ++ line) = lines front ++ [line] := by
    rw [hfront.lines_append, hone]
  have hnames : rustNames none (lines front ++ [endingComment, line]) =
      met ++ (rustPaths (statement ++ ' ' :: trim endingComment) ++ [longName n]) := by
    rw [rustNames_of_open hopen (by decide), ← hmet, readsBy_rustStep, hline, rustStep_crateLine]
    rfl
  have hnames' : rustNames none (lines front ++ [line]) =
      met ++ rustPaths (statement ++ ' ' :: crateLine (longName n)) := by
    rw [hline, rustNames_of_open hopen (mem_trim_crateLine _), ← hmet, (solid_crateLine _).trim, rustNames,
      List.append_nil]
  have hequal := hinvisible endingComment [line] _ _ (by decide) ht ht'
    (ht ▸ spansAtMost_endingComment hspans hopen line)
  change distinct (rustNames none (lines _)) = distinct (rustNames none (lines _)) at hequal
  rw [ht, ht', hnames, hnames'] at hequal
  apply longName_not_mem (not_mem_of_openStatement? hopen) (Nat.le_of_eq hn.symm)
  rw [← hequal, mem_distinct]
  refine ⟨(solid_longName n).ends.ne_nil, longName n, ?_, (solid_longName n).trim⟩
  exact List.mem_append_right _ (List.mem_append_right _ (List.mem_singleton_self _))

/-- Comments behind the finished lines of a text that has no statement over more than 200 lines are invisible just
where no statement is open. In an open statement what a comment says gets into the names, and a semicolon in it ends
the statement. -/
theorem commentsInvisible_iff (hfront : EndsLine front) (hspans : SpansAtMost 200 (lines front ++ [[]])) :
    CommentsInvisible front ↔ openStatement? (lines front) = none := by
  constructor
  · intro hinvisible
    cases hopen : openStatement? (lines front) with
    | none => rfl
    | some unfinished => exact absurd hinvisible (not_commentsInvisible_of_open hfront hspans hopen)
  · exact commentsInvisible_of_none

/-- The first line of a group. -/
def openGroup : Text :=
  "use a::\x7b\n".toList

/-- A whole group. -/
def closedGroup : Text :=
  openGroup ++ "    b,\n\x7d;\n".toList

/-- The group with a comment in it. -/
def remarkedGroup : Text :=
  openGroup ++ "    // c\n    b,\n\x7d;\n".toList

theorem commentsInvisible_iff_groups :
    (EndsLine openGroup ∧ SpansAtMost 200 (lines openGroup ++ [[]]) ∧ ¬ CommentsInvisible openGroup) ∧
    EndsLine closedGroup ∧ SpansAtMost 200 (lines closedGroup ++ [[]]) ∧ CommentsInvisible closedGroup := by
  have hends : EndsLine openGroup ∧ EndsLine closedGroup := by decide
  have hspans : SpansAtMost 200 (lines openGroup ++ [[]]) ∧ SpansAtMost 200 (lines closedGroup ++ [[]]) := by
    decide
  refine ⟨⟨hends.1, hspans.1, ?_⟩, hends.2, hspans.2, ?_⟩
  · rw [commentsInvisible_iff hends.1 hspans.1]
    decide
  · rw [commentsInvisible_iff hends.2 hspans.2]
    decide

/-- A comment in a group gets into the names. -/
theorem not_commentsInvisible_openGroup :
    importsOf .rust remarkedGroup = ["a::// c b".toList] ∧ importsOf .rust closedGroup = ["a::b".toList] ∧
      ¬ CommentsInvisible openGroup := by
  have hremarked : importsOf .rust remarkedGroup = ["a::// c b".toList] := by decide +kernel
  have hclosed : importsOf .rust closedGroup = ["a::b".toList] := by decide +kernel
  refine ⟨hremarked, hclosed, fun hinvisible => ?_⟩
  have hequal := hinvisible "    // c".toList ["    b,".toList, "\x7d;".toList] remarkedGroup closedGroup (by decide)
    (by decide) (by decide) (by decide)
  rw [hremarked, hclosed] at hequal
  exact absurd hequal (by decide)

end Places

end Imports

end Outline
