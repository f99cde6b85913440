import Outline.Imports
import Outline.Proofs.Grammar.Names
import Outline.Proofs.Imports.Distinct
import Outline.Proofs.Pattern.Preferred

namespace Outline

namespace Imports

open Text

/-- What one entry imports: a path, perhaps under another name. -/
structure GoEntry where
  alias? : Option Text
  path : Text
deriving DecidableEq

namespace GoEntry

/-- The entry as it is written. -/
def text (entry : GoEntry) : Text :=
  entry.alias?.elim [] (· ++ [' ']) ++ '"' :: (entry.path ++ ['"'])

/-- A name is a word or a dot, and a path is more than white space and stays on its line between the quotes. -/
structure IsValid (entry : GoEntry) : Prop where
  alias? : ∀ name ∈ entry.alias?, name = ['.'] ∨ name ≠ [] ∧ ∀ c ∈ name, isWordChar c = true
  path : trim entry.path ≠ []
  quote : '"' ∉ entry.path
  feed : '\n' ∉ entry.path

instance (entry : GoEntry) : Decidable entry.IsValid :=
  decidable_of_iff
    ((∀ name ∈ entry.alias?, name = ['.'] ∨ name ≠ [] ∧ name.all isWordChar = true) ∧ trim entry.path ≠ [] ∧
      '"' ∉ entry.path ∧ '\n' ∉ entry.path)
    ⟨fun h => ⟨by simpa using h.1, h.2.1, h.2.2.1, h.2.2.2⟩,
      fun h => ⟨by simpa using h.alias?, h.path, h.quote, h.feed⟩⟩

/-- A line for each entry. -/
def singleLines (entries : List GoEntry) : List Text :=
  entries.map fun entry => "import ".toList ++ entry.text

/-- A block with a line for each entry. -/
def blockLines (entries : List GoEntry) : List Text :=
  "import (".toList :: (entries.map text ++ [[')']])

/-- All entries between brackets on one line. -/
def groupLine (entries : List GoEntry) : Text :=
  "import (".toList ++ (join [';', ' '] (entries.map text) ++ [')'])

/-- The lines of the text are the given ones, but for white space around them. -/
def LaidOut (lines : List Text) (t : Text) : Prop :=
  (Text.lines t).map trim = lines

instance (lines : List Text) (t : Text) : Decidable (LaidOut lines t) :=
  inferInstanceAs (Decidable (_ = _))

section Text

variable {entry : GoEntry}

theorem IsValid.path_ne_nil (hentry : entry.IsValid) : entry.path ≠ [] := by
  intro hnil
  apply hentry.path
  rw [hnil]
  rfl

/-- The characters of another name. -/
def aliasClass : CharClass :=
  .word ||| .char '.'

theorem IsValid.forall_alias (hentry : entry.IsValid) {name : Text} (hname : name ∈ entry.alias?) :
    name ≠ [] ∧ ∀ c ∈ name, aliasClass.contains c = true := by
  rcases hentry.alias? name hname with rfl | ⟨hne, hword⟩
  · exact ⟨by decide, List.forall_mem_singleton.2 (by decide)⟩
  · refine ⟨hne, fun c hc => ?_⟩
    change (isWordChar c || c == '.') = true
    rw [hword c hc, Bool.true_or]

theorem not_blank_of_aliasClass {c : Char} (hc : aliasClass.contains c = true) : isBlank c = false := by
  have hcases : (isWordChar c || c == '.') = true := hc
  rw [Bool.or_eq_true, beq_iff_eq] at hcases
  rcases hcases with hword | rfl
  · exact not_blank_of_isWordChar hword
  · decide

/-- An entry begins with a character that is no white space and no bracket. -/
theorem IsValid.exists_text_eq_cons (hentry : entry.IsValid) :
    ∃ c rest, entry.text = c :: rest ∧ isBlank c = false ∧ c ≠ '(' ∧ c ≠ ')' := by
  cases halias : entry.alias? with
  | none => exact ⟨'"', entry.path ++ ['"'], by rw [text, halias]; rfl, by decide⟩
  | some name =>
    obtain ⟨hne, hclass⟩ := hentry.forall_alias halias
    obtain ⟨c, more, rfl⟩ := List.exists_cons_of_ne_nil hne
    have hc := hclass c List.mem_cons_self
    refine ⟨c, more ++ [' '] ++ '"' :: (entry.path ++ ['"']), by rw [text, halias]; rfl, not_blank_of_aliasClass hc, ?_⟩
    constructor
    · rintro rfl
      exact absurd hc (by decide)
    · rintro rfl
      exact absurd hc (by decide)

theorem IsValid.solid (hentry : entry.IsValid) : Solid entry.text where
  starts := by
    obtain ⟨c, rest, htext, hc, -⟩ := hentry.exists_text_eq_cons
    exact ⟨c, rest, htext, hc⟩
  ends := by
    have hquote : EndsSolid ['"'] := ⟨[], '"', rfl, by decide⟩
    rw [text, ← List.cons_append, ← List.append_assoc]
    exact hquote.append _

theorem IsValid.not_feed (hentry : entry.IsValid) : '\n' ∉ entry.text := by
  have hquoted : '\n' ∉ '"' :: (entry.path ++ ['"']) := by simp [hentry.feed]
  rw [text, List.mem_append, not_or]
  refine ⟨?_, hquoted⟩
  cases halias : entry.alias? with
  | none => exact List.not_mem_nil
  | some name =>
    obtain ⟨-, hclass⟩ := hentry.forall_alias halias
    rw [Option.elim_some, List.mem_append, not_or]
    refine ⟨fun hmem => ?_, by decide⟩
    exact absurd (not_blank_of_aliasClass (hclass _ hmem)) (by decide)

variable {entries : List GoEntry}

theorem solid_groupLine (entries : List GoEntry) : Solid (groupLine entries) := by
  refine ⟨⟨'i', "mport (".toList ++ (join [';', ' '] (entries.map text) ++ [')']), rfl, by decide⟩, ?_⟩
  exact EndsSolid.append (EndsSolid.append ⟨[], ')', rfl, by decide⟩ _) _

theorem not_feed_groupLine (hentries : ∀ entry ∈ entries, entry.IsValid) : '\n' ∉ groupLine entries := by
  have hjoin : '\n' ∉ join [';', ' '] (entries.map text) := by
    cases entries with
    | nil => exact List.not_mem_nil
    | cons entry entries =>
      rw [List.map_cons, join_cons_eq_flatMap, List.mem_append, List.mem_flatMap, not_or]
      obtain ⟨hentry, hentries⟩ := List.forall_mem_cons.1 hentries
      refine ⟨hentry.not_feed, ?_⟩
      rintro ⟨line, hline, hfeed⟩
      obtain ⟨other, hother, rfl⟩ := List.mem_map.1 hline
      rw [List.mem_append] at hfeed
      exact hfeed.elim (by decide) (hentries other hother).not_feed
  unfold groupLine
  rw [List.mem_append, List.mem_append, not_or, not_or]
  exact ⟨by decide, hjoin, by decide⟩

end Text

section Patterns

variable {entry : GoEntry} {start : Cursor} {rest : Text}

/-- What may stand before the quotes is read as far as it is there. -/
theorem IsValid.prefers_alias (hentry : entry.IsValid) (hstart : start.rest = entry.text ++ rest) :
    ∃ middle, Pattern.Prefers (.opt (.run1 aliasClass ++ .gap)) start middle ∧
      middle.rest = '"' :: (entry.path ++ '"' :: rest) := by
  have hquoted : '"' :: (entry.path ++ ['"']) ++ rest = '"' :: (entry.path ++ '"' :: rest) := by simp
  cases halias : entry.alias? with
  | none =>
    rw [text, halias, Option.elim_none, List.nil_append, hquoted] at hstart
    have hone : Pattern.Fails (.one aliasClass) start := Pattern.fails_one hstart (by decide)
    exact ⟨start, ((hone.seq _).seq _).prefers_opt, hstart⟩
  | some name =>
    obtain ⟨hne, hclass⟩ := hentry.forall_alias halias
    obtain ⟨c, more, rfl⟩ := List.exists_cons_of_ne_nil hne
    have hshape : start.rest = c :: (more ++ ' ' :: '"' :: (entry.path ++ '"' :: rest)) := by
      rw [hstart, text, halias]
      simp
    have hspace : ∀ d ∈ [' '], CharClass.blank.contains d = true := List.forall_mem_singleton.2 (by decide)
    have hname := Pattern.prefers_run1 hshape hclass (fun d hd => by obtain rfl := Option.some.inj hd; decide)
    obtain ⟨behind, hbehind⟩ : ∃ behind, behind = start.skip (c :: more) (' ' :: '"' :: (entry.path ++ '"' :: rest)) :=
      ⟨_, rfl⟩
    rw [← hbehind] at hname
    have hgap : Pattern.Prefers .gap behind (behind.skip [' '] ('"' :: (entry.path ++ '"' :: rest))) :=
      Pattern.prefers_run1 (by rw [hbehind]; rfl) hspace (fun d hd => by obtain rfl := Option.some.inj hd; decide)
    exact ⟨_, (hname.seq hgap).opt, rfl⟩

/-- An entry is read, and its path is remembered. -/
theorem IsValid.prefers_goItem (hentry : entry.IsValid) (start : Cursor) (hstart : start.rest = entry.text ++ rest) :
    ∃ stop, Pattern.Prefers goItem start stop ∧ stop.text? .item = some entry.path := by
  obtain ⟨middle, hmiddle, hrest⟩ := hentry.prefers_alias hstart
  obtain ⟨c, more, hpath⟩ := List.exists_cons_of_ne_nil hentry.path_ne_nil
  have hclass : ∀ d ∈ c :: more, (CharClass.except "\"").contains d = true := by
    intro d hd
    have hne : d ≠ '"' := fun heq => hentry.quote (by rw [hpath, ← heq]; exact hd)
    simpa [CharClass.except, CharClass.chars, CharClass.ofChars, CharClass.contains] using hne
  obtain ⟨inner, hinner⟩ : ∃ inner, inner = middle.skip ['"'] (entry.path ++ '"' :: rest) := ⟨_, rfl⟩
  have hopen : Pattern.Prefers (.lit "\"") middle inner := hinner ▸ Pattern.prefers_ofText ['"'] hrest
  have hbody : inner.rest = c :: (more ++ '"' :: rest) := by
    rw [hinner, hpath]
    rfl
  obtain ⟨found, hfound⟩ : ∃ found, found = (inner.skip (c :: more) ('"' :: rest)).remember .item inner.pos := ⟨_, rfl⟩
  have hitem : Pattern.Prefers (.item (.run1 (.except "\""))) inner found := by
    rw [hfound]
    apply Pattern.Prefers.group
    exact Pattern.prefers_run1 hbody hclass (fun d hd => by obtain rfl := Option.some.inj hd; decide)
  have hclose : Pattern.Prefers (.lit "\"") found (found.skip ['"'] rest) :=
    Pattern.prefers_ofText ['"'] (by rw [hfound]; rfl)
  refine ⟨found.skip ['"'] rest, ((hmiddle.seq hopen).seq hitem).seq hclose, ?_⟩
  change found.text? .item = _
  rw [hfound, hpath]
  exact Pattern.text?_remember_skip .item inner (c :: more) ('"' :: rest)

theorem IsValid.itemAtStart?_goItem (hentry : entry.IsValid) (rest : Text) :
    itemAtStart? goItem (entry.text ++ rest) = some entry.path := by
  obtain ⟨stop, hstop, htext⟩ := hentry.prefers_goItem (.start (entry.text ++ rest)) rfl
  have hmatch : goItem.matchStart? (entry.text ++ rest) = some stop := hstop
  rw [itemAtStart?, hmatch]
  exact htext

theorem IsValid.itemAtStart?_goSingle (hentry : entry.IsValid) :
    itemAtStart? goSingle ("import ".toList ++ entry.text) = some entry.path := by
  obtain ⟨behind, hbehind⟩ : ∃ behind, behind = (Cursor.start ("import ".toList ++ entry.text)).skip "import ".toList
    entry.text := ⟨_, rfl⟩
  have hword : Pattern.Prefers (.word "import") (.start ("import ".toList ++ entry.text)) behind :=
    hbehind ▸ Pattern.prefers_word rfl hentry.solid.starts
  have hrest : behind.rest = entry.text ++ [] := by
    rw [hbehind, List.append_nil]
    rfl
  obtain ⟨stop, hstop, htext⟩ := hentry.prefers_goItem behind hrest
  have hmatch : goSingle.matchStart? ("import ".toList ++ entry.text) = some stop := hword.seq hstop
  rw [itemAtStart?, hmatch]
  exact htext

end Patterns

section Layouts

variable {entry : GoEntry} {entries : List GoEntry} {lines : List Text}

theorem IsValid.goBlock?_single (hentry : entry.IsValid) : goBlock? ("import ".toList ++ entry.text) = none := by
  obtain ⟨c, rest, htext, hc, hopen, -⟩ := hentry.exists_text_eq_cons
  have hstrip : strip? "import".toList ("import ".toList ++ entry.text) = some (' ' :: entry.text) := rfl
  have htrim : trimStart (' ' :: entry.text) = entry.text := by
    rw [htext]
    exact (trimStart_blank_append (List.forall_mem_singleton.2 (by decide)) (c :: rest)).trans
      (trimStart_append_cons hc [] rest)
  have hbracket : startsWith ['('] entry.text = false := by
    rw [htext, startsWith, strip?, if_neg (Ne.symm hopen), Option.isSome_none]
  rw [goBlock?, hstrip]
  simp only [htrim, hbracket, Bool.false_eq_true, if_false]

theorem IsValid.startsWith_close (hentry : entry.IsValid) : startsWith [')'] entry.text = false := by
  obtain ⟨c, rest, htext, -, -, hclose⟩ := hentry.exists_text_eq_cons
  rw [htext, startsWith, strip?, if_neg (Ne.symm hclose), Option.isSome_none]

theorem goBlock?_open (x : Text) : goBlock? ("import (".toList ++ x) = some ('(' :: x) := by
  have hstrip : strip? "import".toList ("import (".toList ++ x) = some (' ' :: '(' :: x) := rfl
  have htrim : trimStart (' ' :: '(' :: x) = '(' :: x := trimStart_append_cons (by decide) [' '] x
  have hopen : startsWith ['('] ('(' :: x) = true := startsWith_iff.2 ⟨x, rfl⟩
  rw [goBlock?, hstrip]
  simp only [htrim, hopen, if_true]

/-- On single lines every path is met. -/
theorem goNames_singleLines (hentries : ∀ entry ∈ entries, entry.IsValid)
    (hlines : lines.map trim = singleLines entries) : goNames false lines = entries.map path := by
  induction entries generalizing lines with
  | nil =>
    obtain rfl := List.map_eq_nil_iff.1 hlines
    rfl
  | cons entry entries ih =>
    obtain ⟨hentry, hentries⟩ := List.forall_mem_cons.1 hentries
    obtain ⟨line, lines, rfl, hline, hlines⟩ := List.map_eq_cons_iff.1 hlines
    rw [goNames, hline, hentry.goBlock?_single, hentry.itemAtStart?_goSingle, ih hentries hlines]
    rfl

/-- Within a block every path is met, up to the bracket that closes it. -/
theorem goNames_entries (hentries : ∀ entry ∈ entries, entry.IsValid)
    (hlines : lines.map trim = entries.map text ++ [[')']]) : goNames true lines = entries.map path := by
  induction entries generalizing lines with
  | nil =>
    obtain ⟨line, lines, rfl, hline, hrest⟩ := List.map_eq_cons_iff.1 hlines
    obtain rfl := List.map_eq_nil_iff.1 hrest
    have hclose : startsWith [')'] [')'] = true := by decide
    rw [goNames, hline, if_pos hclose]
    rfl
  | cons entry entries ih =>
    obtain ⟨hentry, hentries⟩ := List.forall_mem_cons.1 hentries
    obtain ⟨line, lines, rfl, hline, hlines⟩ := List.map_eq_cons_iff.1 hlines
    have hitem := hentry.itemAtStart?_goItem []
    rw [List.append_nil] at hitem
    rw [goNames, hline, hentry.startsWith_close, if_neg Bool.false_ne_true, hitem, ih hentries hlines]
    rfl

theorem goNames_blockLines (hentries : ∀ entry ∈ entries, entry.IsValid)
    (hlines : lines.map trim = blockLines entries) : goNames false lines = entries.map path := by
  obtain ⟨line, lines, rfl, hline, hlines⟩ := List.map_eq_cons_iff.1 hlines
  have hblock : goBlock? "import (".toList = some ['('] := by decide
  have hnone : itemAtStart? goItem (trim (List.dropWhile (· == '(') ['('])) = none := rfl
  have hgoesOn : (!endsWith [')'] "import (".toList) = true := by decide
  rw [goNames, hline, hblock]
  simp only [hnone, hgoesOn]
  rw [goNames_entries hentries hlines]
  rfl

/-- Of a group on one line the first path is met. -/
theorem goNames_groupLine (hentry : entry.IsValid) (hlines : lines.map trim = [groupLine (entry :: entries)]) :
    goNames false lines = [entry.path] := by
  obtain ⟨line, lines, rfl, hline, hrest⟩ := List.map_eq_cons_iff.1 hlines
  obtain rfl := List.map_eq_nil_iff.1 hrest
  obtain ⟨rest, hjoin⟩ : ∃ rest,
      join [';', ' '] ((entry :: entries).map text) ++ [')'] = entry.text ++ (rest ++ [')']) :=
    ⟨(entries.map text).flatMap ([';', ' '] ++ ·), by rw [List.map_cons, join_cons_eq_flatMap, List.append_assoc]⟩
  have hgroup : groupLine (entry :: entries) = "import (".toList ++ (entry.text ++ (rest ++ [')'])) := by
    unfold groupLine
    rw [hjoin]
  have hblock : goBlock? (groupLine (entry :: entries)) = some ('(' :: (entry.text ++ (rest ++ [')']))) := by
    rw [hgroup]
    exact goBlock?_open _
  have hdrop : List.dropWhile (· == '(') ('(' :: (entry.text ++ (rest ++ [')']))) = entry.text ++ (rest ++ [')']) := by
    obtain ⟨c, more, htext, -, hopen, -⟩ := hentry.exists_text_eq_cons
    rw [List.dropWhile_cons_of_pos rfl, htext, List.cons_append, List.dropWhile_cons_of_neg (by simpa using hopen)]
  have hsolid : Solid (entry.text ++ (rest ++ [')'])) :=
    ⟨hentry.solid.starts.append _, EndsSolid.append (EndsSolid.append ⟨[], ')', rfl, by decide⟩ rest) entry.text⟩
  have hends : endsWith [')'] (groupLine (entry :: entries)) = true := by
    rw [endsWith_iff]
    unfold groupLine
    rw [← List.append_assoc]
    exact List.suffix_append _ _
  rw [goNames, hline, hblock]
  simp only [hdrop, hsolid.trim, hentry.itemAtStart?_goItem, hends]
  rfl

end Layouts

section Agreement

variable {entries : List GoEntry}

/-- Solid lines that are each on a line of their own are laid out. -/
theorem laidOut_unlines {lines : List Text} (hsolid : ∀ line ∈ lines, Solid line)
    (hfeed : ∀ line ∈ lines, '\n' ∉ line) : LaidOut lines (unlines lines) := by
  have hlines := lines_unlines_append hfeed []
  rw [List.append_nil] at hlines
  rw [LaidOut, hlines, List.map_append, List.map_map]
  have hmap : lines.map (trim ∘ fun line => (dropReturn line.reverse).reverse) = lines := by
    have hline : ∀ line ∈ lines, (trim ∘ fun line => (dropReturn line.reverse).reverse) line = line :=
      fun line hline => (trim_dropReturn line).trans (hsolid line hline).trim
    rw [List.map_congr_left hline, List.map_id']
  rw [hmap]
  exact List.append_nil lines

theorem importsOf_of_goNames {t : Text} (hentries : ∀ entry ∈ entries, entry.IsValid)
    (hnames : goNames false (lines t) = entries.map path) :
    importsOf .go t = (entries.map fun entry => trim entry.path).eraseDups := by
  change distinct (goNames false (lines t)) = _
  have hpaths : ∀ name ∈ entries.map path, trim name ≠ [] := List.forall_mem_map.2 fun entry hentry =>
    (hentries entry hentry).path
  rw [hnames, distinct_eq_eraseDups_map hpaths, List.map_map]
  rfl

theorem eraseDups_eq_singleton_iff {names : List Text} {name : Text} (hne : names ≠ []) :
    names.eraseDups = [name] ↔ ∀ other ∈ names, other = name := by
  constructor
  · intro heq other hother
    rw [← List.mem_eraseDups, heq] at hother
    exact List.mem_singleton.1 hother
  · intro hall
    obtain ⟨first, rest, rfl⟩ := List.exists_cons_of_ne_nil hne
    obtain ⟨rfl, hrest⟩ := List.forall_mem_cons.1 hall
    have hnone : rest.filter (fun other => !other == first) = [] := by
      rw [List.filter_eq_nil_iff]
      intro other hother
      simp [hrest other hother]
    rw [List.eraseDups_cons, hnone]
    rfl

/-- However the entries are laid out, their paths are found, each once, where it comes first. -/
def LayoutsAgree (entries : List GoEntry) : Prop :=
  ∀ t, LaidOut (singleLines entries) t ∨ LaidOut (blockLines entries) t ∨ LaidOut [groupLine entries] t →
    importsOf .go t = (entries.map fun entry => trim entry.path).eraseDups

/-- On single lines and in a block the paths of all entries are found, each once, where it comes first. In a group on
one line the path of the first entry is found, so that the layouts agree just where no entry has another path.
Entries may have names, a dot or an underscore before their paths. -/
theorem layoutsAgree_iff (hne : entries ≠ []) (hentries : ∀ entry ∈ entries, entry.IsValid) :
    (∀ t, LaidOut (singleLines entries) t ∨ LaidOut (blockLines entries) t →
      importsOf .go t = (entries.map fun entry => trim entry.path).eraseDups) ∧
    (∀ t, LaidOut [groupLine entries] t → importsOf .go t = [trim (entries.head hne).path]) ∧
    (LayoutsAgree entries ↔ ∀ entry ∈ entries, trim entry.path = trim (entries.head hne).path) := by
  have hspread : ∀ t, LaidOut (singleLines entries) t ∨ LaidOut (blockLines entries) t →
      importsOf .go t = (entries.map fun entry => trim entry.path).eraseDups := by
    rintro t (ht | ht)
    · exact importsOf_of_goNames hentries (goNames_singleLines hentries ht)
    · exact importsOf_of_goNames hentries (goNames_blockLines hentries ht)
  have hgroup : ∀ t, LaidOut [groupLine entries] t → importsOf .go t = [trim (entries.head hne).path] := by
    intro t ht
    obtain ⟨entry, rest, rfl⟩ := List.exists_cons_of_ne_nil hne
    have hentry := hentries entry List.mem_cons_self
    have hone : ∀ other ∈ [entry], other.IsValid := List.forall_mem_singleton.2 hentry
    exact importsOf_of_goNames hone (goNames_groupLine hentry ht)
  refine ⟨hspread, hgroup, ?_⟩
  have hsame : (entries.map fun entry => trim entry.path).eraseDups = [trim (entries.head hne).path] ↔
      ∀ entry ∈ entries, trim entry.path = trim (entries.head hne).path := by
    rw [eraseDups_eq_singleton_iff (mt List.map_eq_nil_iff.1 hne), List.forall_mem_map]
  rw [← hsame]
  constructor
  · intro hagree
    have hlaid : LaidOut [groupLine entries] (unlines [groupLine entries]) :=
      laidOut_unlines (List.forall_mem_singleton.2 (solid_groupLine entries))
        (List.forall_mem_singleton.2 (not_feed_groupLine hentries))
    exact (hagree _ (.inr (.inr hlaid))).symm.trans (hgroup _ hlaid)
  · rintro heq t (ht | ht | ht)
    · exact hspread t (.inl ht)
    · exact hspread t (.inr ht)
    · rw [hgroup t ht, heq]

/-- Entries with and without another name, two of which have the same path. -/
def mixedEntries : List GoEntry :=
  [⟨none, "a/b".toList⟩, ⟨some ['_'], "c".toList⟩, ⟨some ['.'], "a/b".toList⟩]

/-- The entries in a group on one line. -/
def mixedGroup : Text :=
  "import (\"a/b\"; _ \"c\"; . \"a/b\")".toList

theorem isValid_mixedEntries : ∀ entry ∈ mixedEntries, entry.IsValid := by decide

theorem layoutsAgree_iff_mixedEntries :
    importsOf .go "import \"a/b\"\nimport _ \"c\"\nimport . \"a/b\"\n".toList = ["a/b", "c"].map String.toList ∧
    importsOf .go "import (\r\n\t\"a/b\"\r\n\t_ \"c\"\r\n\t. \"a/b\"\r\n)".toList = ["a/b", "c"].map String.toList ∧
    importsOf .go mixedGroup = ["a/b".toList] := by
  have hexact := layoutsAgree_iff (by decide) isValid_mixedEntries
  refine ⟨?_, ?_, ?_⟩
  · rw [hexact.1 _ (.inl (by decide))]
    decide
  · rw [hexact.1 _ (.inr (by decide))]
    decide
  · rw [hexact.2.1 _ (by decide)]
    decide

/-- The layouts do not agree on entries with different paths. -/
theorem not_layoutsAgree_mixedEntries : ¬ LayoutsAgree mixedEntries := by
  intro hagree
  have hgroup := hagree mixedGroup (.inr (.inr (by decide)))
  exact absurd hgroup (by decide +kernel)

end Agreement

end GoEntry

end Imports

end Outline
