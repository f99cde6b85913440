import Outline.Imports
import Outline.Proofs.Imports.Distinct
import Outline.Proofs.Imports.Layout
import Outline.Proofs.Pattern.Preferred

namespace Outline

namespace Imports

open Text UseTree

section Patterns

variable {x : Text}

/-- The place behind the first word of a statement. -/
def behindUse (rest : Text) : Cursor :=
  ⟨4, "use ".toList.reverse, rest, []⟩

theorem prefers_use {t : Text} (ht : StartsSolid t) :
    Pattern.Prefers (.word "use") (.start ("use ".toList ++ t)) (behindUse t) :=
  Pattern.prefers_word rfl ht

/-- A statement begins with a word and white space, and what follows on its line is remembered. -/
theorem itemAtStart?_rustUse (hx : StartsSolid x) (hfeed : '\n' ∉ x) :
    itemAtStart? rustUse ("use ".toList ++ x) = some x := by
  have hpub : Pattern.Fails (.lit "pub" ++ .opt (.lit "(" ++ .run0 (.except ")") ++ .lit ")") ++ .gap)
      (.start ("use ".toList ++ x)) := rfl
  have hany : ∀ c ∈ x, CharClass.any.contains c = true := by
    intro c hc
    have hne : c ≠ '\n' := fun heq => hfeed (heq ▸ hc)
    simpa [CharClass.any, CharClass.contains] using hne
  have hitem : Pattern.Prefers (.run0 .any) (behindUse x) ((behindUse x).skip x []) :=
    Pattern.prefers_run (List.append_nil x).symm hany (by simp)
  have hprefers : Pattern.Prefers rustUse (.start ("use ".toList ++ x)) _ :=
    ((hpub.prefers_opt.seq (prefers_use hx)).seq hitem.group).seq (Pattern.prefers_assert rfl)
  have hmatch : rustUse.matchStart? ("use ".toList ++ x) = _ := hprefers
  rw [itemAtStart?, hmatch]
  exact Pattern.text?_remember_skip _ _ x []

theorem itemAtStart?_rustExternCrate (x : Text) : itemAtStart? rustExternCrate ("use ".toList ++ x) = none := rfl

/-- What stands between the word and the end of the statement is remembered, unless a second word says what kind of
name it is. -/
theorem itemAtStart?_phpUse (hx : StartsSolid x) (hend : ';' ∉ x)
    (hkind : ∀ word ∈ ["function", "const"], ∀ c more, x = word.toList ++ c :: more → isBlank c = false) :
    itemAtStart? phpUse ("use ".toList ++ x ++ [';']) = some x := by
  obtain ⟨c, rest, rfl, hc⟩ := hx
  have huse := prefers_use ⟨c, rest ++ [';'], rfl, hc⟩
  have hfails : ∀ word ∈ ["function", "const"], Pattern.Fails (.word word) (behindUse (c :: (rest ++ [';']))) := by
    intro word hword
    apply Pattern.fails_word
    intro d more heq
    -- white space behind the word would be within `x`, since a semicolon ends it
    change (c :: rest) ++ [';'] = word.toList ++ d :: more at heq
    obtain rfl | ⟨front, e, rfl⟩ := List.eq_nil_or_concat more
    · obtain ⟨-, hlast⟩ := List.append_inj' heq rfl
      rw [← List.singleton_inj.1 hlast]
      decide
    · rw [List.concat_eq_append, ← List.cons_append, ← List.append_assoc] at heq
      exact hkind word hword d front (List.append_inj' heq rfl).1
  have hclass : ∀ d ∈ c :: rest, (CharClass.except ";").contains d = true := by
    intro d hd
    have hne : d ≠ ';' := fun heq => hend (heq ▸ hd)
    simpa [CharClass.except, CharClass.chars, CharClass.ofChars, CharClass.contains] using hne
  have hitem : Pattern.Prefers (.run1 (.except ";")) (behindUse (c :: (rest ++ [';'])))
      ((behindUse (c :: (rest ++ [';']))).skip (c :: rest) [';']) :=
    Pattern.prefers_run1 rfl hclass fun d hd => by
      obtain rfl := Option.some.inj hd
      decide
  have hopt := ((hfails "function" (by decide)).alt (hfails "const" (by decide))).prefers_opt
  have hprefers : Pattern.Prefers phpUse (.start ("use ".toList ++ (c :: rest) ++ [';'])) _ :=
    ((huse.seq hopt).seq hitem.group).seq (Pattern.prefers_ofText [';'] rfl)
  have hmatch : phpUse.matchStart? ("use ".toList ++ (c :: rest) ++ [';']) = _ := hprefers
  rw [itemAtStart?, hmatch]
  exact Pattern.text?_remember_skip _ _ (c :: rest) [';']

/-- What a file is loaded by stands between quotes. -/
theorem itemsIn_phpRequire (hsingle : '\'' ∉ x) (hdouble : '"' ∉ x) : itemsIn phpRequire x = [] := by
  have hnone : phpRequire.findAll x = [] := by
    apply Pattern.findFrom_eq_nil
    intro pos seen c rest hsuffix
    apply Pattern.fails_of_not_matches
    intro stop hmatches
    cases hmatches with
    | seq hfront hquoted =>
      cases hquoted with
      | seq hitem hquote =>
        cases hquote with
        | one hrest hclass =>
          obtain ⟨taken, htaken, -, -⟩ := (hfront.seq hitem).exists_taken
          rw [hrest] at htaken
          have hmem := hsuffix.subset (htaken ▸ List.mem_append_right taken List.mem_cons_self)
          have hquotes : ∀ d, (CharClass.chars "'\"").contains d = true → d = '\'' ∨ d = '"' := by
            simp [CharClass.chars, CharClass.ofChars, CharClass.contains]
          rcases hquotes _ hclass with rfl | rfl
          · exact hsingle hmem
          · exact hdouble hmem
  rw [itemsIn, hnone]
  rfl

end Patterns

section Lines

variable {t statement : Text} {more : List Text}

/-- A statement goes on up to its last line, if it does not end before and has not too many lines. -/
theorem rustNames_some (hend : ';' ∉ statement) (hmore : ∀ line ∈ more.dropLast, ';' ∉ line) (added : Nat)
    (hadded : added + more.length ≤ maxStatementLines) :
    rustNames (some (statement, added)) more =
      rustPaths (statement ++ more.flatMap fun line => ' ' :: Text.trim line) := by
  induction more generalizing statement added with
  | nil => rw [rustNames, List.flatMap_nil, List.append_nil]
  | cons line more ih =>
    rw [List.flatMap_cons, ← List.append_assoc]
    cases more with
    | nil =>
      -- on the last line it does not matter whether the statement ends
      rw [rustNames, rustNames, List.append_nil, rustNames, List.flatMap_nil, List.append_nil, ite_self]
    | cons next more =>
      rw [List.dropLast_cons_cons, List.forall_mem_cons] at hmore
      have hjoined : ';' ∉ statement ++ ' ' :: Text.trim line := by
        rw [List.mem_append, List.mem_cons, not_or, not_or]
        exact ⟨hend, by decide, not_mem_trim hmore.1⟩
      have hfew : ¬ maxStatementLines ≤ added + 1 := by
        simp only [List.length_cons] at hadded
        omega
      have hopen : (Text.contains [';'] (statement ++ ' ' :: Text.trim line) ||
          decide (maxStatementLines ≤ added + 1)) = false := by
        rw [contains_eq_false hjoined, decide_eq_false hfew, Bool.or_false]
      have hrest : added + 1 + (next :: more).length ≤ maxStatementLines := by
        rw [List.length_cons] at hadded
        omega
      rw [rustNames, hopen, if_neg Bool.false_ne_true, ih hjoined hmore.2 (added + 1) hrest]

/-- Only on its last line a text has the character at its end, if it has it nowhere else. -/
theorem not_mem_of_mem_dropLast_linesFrom {c : Char} (hc : c ≠ '\n') (ht : c ∉ t) {current : Text}
    (hcurrent : c ∉ current) : ∀ line ∈ (linesFrom current (t ++ [c])).dropLast, c ∉ line := by
  induction t generalizing current with
  | nil =>
    have hone : linesFrom current [c] = [(c :: current).reverse] := by simp [linesFrom, hc]
    rw [List.nil_append, hone]
    exact List.forall_mem_nil _
  | cons d t ih =>
    obtain ⟨hd, ht⟩ := not_or.1 (mt List.mem_cons.2 ht)
    rw [List.cons_append, linesFrom]
    by_cases hfeed : d = '\n'
    · have hmore : linesFrom [] (t ++ [c]) ≠ [] := linesFrom_ne_nil (by simp) []
      rw [if_pos hfeed, List.dropLast_cons_of_ne_nil hmore, List.forall_mem_cons]
      refine ⟨?_, ih ht List.not_mem_nil⟩
      rw [List.mem_reverse]
      exact fun hmem => hcurrent ((dropReturn_suffix current).subset hmem)
    · rw [if_neg hfeed]
      apply ih ht
      rw [List.mem_cons, not_or]
      exact ⟨hd, hcurrent⟩

/-- A statement is read to its end, its lines trimmed and put behind each other. -/
theorem rustNames_use (ht : StartsSolid t) (hend : ';' ∉ t)
    (hlines : (lines ("use ".toList ++ (t ++ [';']))).length ≤ maxStatementLines) :
    rustNames none (lines ("use ".toList ++ (t ++ [';']))) = rustPaths (onOneLine (t ++ [';'])) := by
  have huse : EndsSolid "use".toList := ⟨['u', 's'], 'e', rfl, by decide⟩
  have hspace : '\n' ∉ "use".toList ++ [' '] := by decide
  obtain ⟨first, joined, more, hfirst, hall, hstarts, hfeed, hjoined⟩ :=
    exists_lines_append huse hspace (ht.append [';'])
  change lines ("use ".toList ++ (t ++ [';'])) = joined :: more at hall
  change Text.trim joined = "use ".toList ++ Text.trim first at hjoined
  -- the semicolon stands on the last line, so no line before ends the statement
  have hearly := not_mem_of_mem_dropLast_linesFrom (by decide) hend List.not_mem_nil
  change ∀ line ∈ (lines (t ++ [';'])).dropLast, ';' ∉ line at hearly
  rw [hfirst] at hearly
  have hstatement : onOneLine (t ++ [';']) = Text.trim first ++ more.flatMap fun line => ' ' :: Text.trim line := by
    rw [onOneLine, hfirst, List.map_cons, join_cons_eq_flatMap, List.flatMap_map]
    rfl
  have hitem := itemAtStart?_rustUse hstarts (not_mem_trim hfeed)
  have hcode : Text.startsWith ['/', '/'] ("use ".toList ++ Text.trim first) = false := rfl
  rw [hall] at hlines
  rw [hall, hstatement, rustNames, hjoined]
  simp only [hcode, itemAtStart?_rustExternCrate, hitem, Bool.false_eq_true, if_false]
  cases more with
  | nil =>
    rw [rustNames, rustNames, List.append_nil, List.flatMap_nil, List.append_nil, ite_self]
  | cons next more =>
    rw [List.dropLast_cons_cons, List.forall_mem_cons] at hearly
    rw [contains_eq_false (not_mem_trim hearly.1), if_neg Bool.false_ne_true]
    apply rustNames_some (not_mem_trim hearly.1) hearly.2
    simp only [List.length_cons] at hlines ⊢
    omega

end Lines

section Trees

variable {separator text : Text} {tree : UseTree}

theorem isSeparator_colons : IsSeparator [':', ':'] :=
  ⟨by decide, by simp⟩

theorem isSeparator_backslash : IsSeparator ['\\'] :=
  ⟨by decide, by simp⟩

/-- A tree by itself is expanded to the paths to its leaves. -/
theorem expandTree_root (hsep : IsSeparator separator) (htree : Written separator tree text) :
    expandTree separator [] text = (tree.leaves []).map (join separator) := by
  have hnone : Blank [] := List.forall_mem_nil _
  have hexpand := expandTree_written hsep (List.forall_mem_nil _) htree hnone hnone
  rwa [List.nil_append, List.append_nil] at hexpand

theorem rustPaths_written (htree : Written [':', ':'] tree text) :
    rustPaths (text ++ [';']) = (tree.leaves []).map (join [':', ':']) := by
  have hend : ';' ∉ text := fun hmem => (quiet_written isSeparator_colons htree _ hmem).1 rfl
  have hupTo : upTo [';'] (text ++ [';']) = text := by
    rw [upTo, Text.cut?_append_cons hend]
    rfl
  rw [rustPaths, hupTo, (htree.solid isSeparator_colons).trim,
    stripAll_eq_self (not_prefix_written isSeparator_colons htree), expandTree_root isSeparator_colons htree]

theorem itemAtStart?_phpUse_written (htree : Written ['\\'] tree text)
    (hkind : ∀ word ∈ ["function", "const"], ∀ name, tree ≠ .path [word.toList] (some name)) :
    itemAtStart? phpUse ("use ".toList ++ text ++ [';']) = some text := by
  have hwords : ∀ word ∈ ["function", "const"], IsWord word.toList ∧ word.toList ≠ selfWord := by decide
  have hend : ';' ∉ text := fun hmem => (quiet_written isSeparator_backslash htree _ hmem).1 rfl
  apply itemAtStart?_phpUse (htree.solid isSeparator_backslash).starts hend
  intro word hword c more htext
  obtain ⟨hisWord, hself⟩ := hwords word hword
  rw [← Bool.not_eq_true]
  intro hblank
  obtain ⟨name, hname⟩ := exists_eq_path isSeparator_backslash htree hisWord hself hblank htext
  exact hkind word hword name hname

theorem phpNames_written (htree : Written ['\\'] tree text)
    (hkind : ∀ word ∈ ["function", "const"], ∀ name, tree ≠ .path [word.toList] (some name)) :
    phpNames ("use ".toList ++ text ++ [';']) = (tree.leaves []).map (join ['\\']) := by
  have hsolid := htree.solid isSeparator_backslash
  have hquiet := quiet_written isSeparator_backslash htree
  have hitem := itemAtStart?_phpUse_written htree hkind
  have hquotes : ∀ c ∈ "use ".toList ++ text ++ [';'], c ≠ '\'' ∧ c ≠ '"' := by
    rw [List.forall_mem_append, List.forall_mem_append]
    exact ⟨⟨by simp, fun c hc => (hquiet c hc).2⟩, by simp⟩
  have hrequire : itemsIn phpRequire ("use ".toList ++ text ++ [';']) = [] :=
    itemsIn_phpRequire (fun hmem => (hquotes _ hmem).1 rfl) (fun hmem => (hquotes _ hmem).2 rfl)
  have hpieces := splitTopLevel_whole (whole_written isSeparator_backslash htree (Int.le_refl 0))
  have hstrip := stripAll_eq_self (not_prefix_written isSeparator_backslash htree)
  have hused : phpNames ("use ".toList ++ text ++ [';']) =
      (splitTopLevel 0 text).flatMap fun piece => expandTree ['\\'] [] (stripAll ['\\'] (Text.trim piece)) := by
    have hcode : (Text.startsWith ['/', '/'] (Text.trimStart ("use ".toList ++ text ++ [';'])) ||
        Text.startsWith ['#'] (Text.trimStart ("use ".toList ++ text ++ [';'])) ||
        Text.startsWith ['*'] (Text.trimStart ("use ".toList ++ text ++ [';']))) = false := rfl
    simp only [phpNames, hcode, hitem, hrequire, Bool.false_eq_true, if_false]
    rw [List.map_nil, List.append_nil]
  rw [hused, hpieces, List.flatMap_singleton, hsolid.trim, hstrip, expandTree_root isSeparator_backslash htree]

/-- The imports of a statement are the paths to the leaves of its tree, from left to right and without repetitions: a
path that is below groups begins with the paths of these groups, the word for a group itself stands for their path,
and other names are left out. With double colons the statement may be laid out over lines, as long as these are not too
many. With backslashes it stands on a line, and its first word is not one that tells what kind of name follows. -/
theorem importsOf_use_tree :
    (∀ tree text, Written [':', ':'] tree text → (lines ("use ".toList ++ text ++ [';'])).length ≤ 200 →
      importsOf .rust ("use ".toList ++ text ++ [';']) = ((tree.leaves []).map (join [':', ':'])).eraseDups) ∧
    (∀ tree text, Written ['\\'] tree text →
      expandTree ['\\'] [] text = (tree.leaves []).map (join ['\\'])) ∧
    (∀ tree text, Written ['\\'] tree text → '\n' ∉ text →
      (∀ word ∈ ["function", "const"], ∀ name, tree ≠ .path [word.toList] (some name)) →
      importsOf .php ("use ".toList ++ text ++ [';']) = ((tree.leaves []).map (join ['\\'])).eraseDups) := by
  refine ⟨?_, ?_, ?_⟩
  · intro tree text htree hlines
    have hsolid := htree.solid isSeparator_colons
    have hend : ';' ∉ text := fun hmem => (quiet_written isSeparator_colons htree _ hmem).1 rfl
    have hsemicolon : Solid [';'] := solid_of_forall (by decide) (List.forall_mem_singleton.2 (by decide))
    have hline : onOneLine (text ++ [';']) = onOneLine text ++ [';'] := onOneLine_append hsolid.ends hsemicolon
    rw [List.append_assoc] at hlines ⊢
    change distinct (rustNames none _) = _
    rw [rustNames_use hsolid.starts hend hlines, hline,
      rustPaths_written (written_onOneLine isSeparator_colons htree)]
    exact distinct_eq_eraseDups fun name => solid_of_mem_leaves isSeparator_colons htree
  · intro tree text htree
    exact expandTree_root isSeparator_backslash htree
  · intro tree text htree hfeed hkind
    have hone : lines ("use ".toList ++ text ++ [';']) = ["use ".toList ++ text ++ [';']] := by
      apply lines_of_not_mem (by simp)
      rw [List.mem_append, List.mem_append, not_or, not_or]
      exact ⟨⟨by decide, hfeed⟩, by decide⟩
    change distinct ((lines _).flatMap phpNames) = _
    rw [hone, List.flatMap_singleton, phpNames_written htree hkind]
    exact distinct_eq_eraseDups fun name => solid_of_mem_leaves isSeparator_backslash htree

/-- A group in a group, with the path of the inner group, another name and a repetition. -/
def nestedTree : UseTree :=
  .group ["std".toList]
    [.path ["fs".toList] none, .group ["io".toList] [.self none, .path ["Read".toList] (some "R".toList)], .all [],
      .path ["fs".toList] none]

/-- The tree with white space in front of the members of the outer group, and a comma behind the last. -/
def nestedText (separator fill : Text) : Text :=
  stem separator ["std".toList] ++ '{' :: (fill ++ ("fs".toList ++ []) ++ ',' :: (fill ++
    (stem separator ["io".toList] ++ '{' :: ([] ++ ("self".toList ++ []) ++ ',' :: ([' '] ++
      ("Read as R".toList ++ [])) ++ ['}']) ++ []) ++ ',' :: (fill ++ (star ++ []) ++ ',' ::
        (fill ++ ("fs".toList ++ []) ++ ',' :: fill))) ++ ['}'])

theorem written_nestedText {separator fill : Text} (hfill : Blank fill) :
    Written separator nestedTree (nestedText separator fill) := by
  have hblank : Blank [] := by decide
  have hspace : Blank [' '] := by decide
  have hfs : Written separator (.path ["fs".toList] none) "fs".toList :=
    .path (by decide) (by decide) (by decide) (by decide)
  have hread : Written separator (.path ["Read".toList] (some "R".toList)) "Read as R".toList :=
    .path (by decide) (by decide) (by decide) (by decide)
  have hself : Written separator (.self none) "self".toList := .self (by decide)
  have hall : Written separator (.all []) star := .all (by decide)
  have hinner : ∀ word ∈ ["io".toList], IsWord word := by decide
  have houter : ∀ word ∈ ["std".toList], IsWord word := by decide
  have hio := Written.group hinner (.cons hblank hself hblank (.last hspace hread hblank))
  apply Written.group houter
  exact .cons hfill hfs hblank (.cons hfill hio hblank (.cons hfill hall hblank (.cons hfill hfs hblank (.none hfill))))

theorem importsOf_use_tree_nestedText :
    (lines ("use ".toList ++ nestedText [':', ':'] "\n  ".toList ++ [';'])).length = 6 ∧
    importsOf .rust ("use ".toList ++ nestedText [':', ':'] "\n  ".toList ++ [';']) =
      ["std::fs", "std::io", "std::io::Read", "std::*"].map String.toList ∧
    expandTree ['\\'] [] (nestedText ['\\'] [' ']) =
      ["std\\fs", "std\\io", "std\\io\\Read", "std\\*", "std\\fs"].map String.toList ∧
    importsOf .php ("use ".toList ++ nestedText ['\\'] [' '] ++ [';']) =
      ["std\\fs", "std\\io", "std\\io\\Read", "std\\*"].map String.toList := by
  have hspace : Blank [' '] := by decide
  have hlines : Blank "\n  ".toList := by decide
  refine ⟨by decide, ?_, ?_, ?_⟩
  · rw [importsOf_use_tree.1 nestedTree _ (written_nestedText hlines) (by decide)]
    decide
  · rw [importsOf_use_tree.2.1 nestedTree _ (written_nestedText hspace)]
    decide
  · rw [importsOf_use_tree.2.2 nestedTree _ (written_nestedText hspace) (by decide) (by simp [nestedTree])]
    decide

end Trees

end Imports

end Outline
