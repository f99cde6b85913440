import Outline.Grammar.All
import Outline.Proofs.Pattern.Matching

namespace Outline

section Blank

/-- The characters of white space. -/
def blankChars : Text :=
  [9, 10, 11, 12, 13, 0x20, 0x85, 0xA0, 0x1680, 0x2000, 0x2001, 0x2002, 0x2003, 0x2004, 0x2005, 0x2006,
    0x2007, 0x2008, 0x2009, 0x200A, 0x2028, 0x2029, 0x202F, 0x205F, 0x3000].map Char.ofNat

theorem mem_blankChars {c : Char} (hblank : isBlank c = true) : c ∈ blankChars := by
  have hcode : c.toNat ∈ [9, 10, 11, 12, 13, 0x20, 0x85, 0xA0, 0x1680, 0x2000, 0x2001, 0x2002, 0x2003, 0x2004,
      0x2005, 0x2006, 0x2007, 0x2008, 0x2009, 0x200A, 0x2028, 0x2029, 0x202F, 0x205F, 0x3000] := by
    simp only [isBlank, Bool.or_eq_true, Bool.and_eq_true, decide_eq_true_eq, beq_iff_eq] at hblank
    simp only [List.mem_cons, List.not_mem_nil, or_false]
    omega
  rw [← Char.ofNat_toNat c]
  exact List.mem_map_of_mem hcode

theorem not_blank_of_forall {p : Char → Bool} (hblank : blankChars.all (fun c => !p c) = true) {c : Char}
    (hc : p c = true) : isBlank c = false := by
  rw [Bool.eq_false_iff]
  intro hc'
  have := List.all_eq_true.1 hblank c (mem_blankChars hc')
  simp [hc] at this

theorem not_blank_of_isNameChar {c : Char} (hname : isNameChar c = true) : isBlank c = false :=
  not_blank_of_forall (by decide +kernel) hname

theorem not_blank_of_isWordChar {c : Char} (hword : isWordChar c = true) : isBlank c = false :=
  not_blank_of_forall (by decide +kernel) hword

theorem not_blank_of_isLetter {c : Char} (hletter : isLetter c = true) : isBlank c = false :=
  not_blank_of_isNameChar (by simp [isNameChar, hletter])

/-- A text with a character that is no white space. -/
def Text.IsVisible (t : Text) : Prop :=
  ∃ c ∈ t, isBlank c = false

theorem mem_dropWhile_of_not {p : Char → Bool} {t : Text} {c : Char} (hmem : c ∈ t) (hc : p c = false) :
    c ∈ t.dropWhile p := by
  rw [← List.takeWhile_append_dropWhile (p := p) (l := t)] at hmem
  rcases List.mem_append.1 hmem with hmem | hmem
  · have := List.all_eq_true.1 List.all_takeWhile c hmem
    simp [hc] at this
  · exact hmem

theorem Text.IsVisible.trim_ne {t : Text} (h : t.IsVisible) : ¬ (Text.trim t).isEmpty = true := by
  obtain ⟨c, hmem, hc⟩ := h
  have hstart : c ∈ Text.trimStart t := mem_dropWhile_of_not hmem hc
  have hend : c ∈ Text.trim t :=
    List.mem_reverse.2 (mem_dropWhile_of_not (List.mem_reverse.2 hstart) hc)
  rw [List.isEmpty_iff]
  exact List.ne_nil_of_mem hend

end Blank

namespace CharClass

/-- Whether the class is seen to hold all white space. -/
def holdsBlank : CharClass → Bool
  | .blank => true
  | .union a b => a.holdsBlank || b.holdsBlank
  | _ => false

/-- Whether the class is seen to hold no white space. -/
def isVisible : CharClass → Bool
  | .char c => !isBlank c
  | .range first last => blankChars.all fun c => !(first ≤ c && c ≤ last)
  | .word => true
  | .blank => false
  | .union a b => a.isVisible && b.isVisible
  | .compl a => a.holdsBlank

theorem contains_of_holdsBlank {cls : CharClass} (hcls : cls.holdsBlank = true) {c : Char}
    (hblank : isBlank c = true) : cls.contains c = true := by
  induction cls with
  | blank => exact hblank
  | union a b iha ihb =>
    simp only [holdsBlank, Bool.or_eq_true] at hcls
    simp only [contains, Bool.or_eq_true]
    exact hcls.imp iha ihb
  | char | range | word | compl => simp [holdsBlank] at hcls

theorem not_blank_of_isVisible {cls : CharClass} (hcls : cls.isVisible = true) {c : Char}
    (hc : cls.contains c = true) : isBlank c = false := by
  induction cls with
  | char x =>
    simp only [contains, beq_iff_eq] at hc
    simpa [isVisible, hc] using hcls
  | range first last => exact not_blank_of_forall hcls hc
  | word => exact not_blank_of_isWordChar hc
  | blank => simp [isVisible] at hcls
  | union a b iha ihb =>
    simp only [isVisible, Bool.and_eq_true] at hcls
    simp only [contains, Bool.or_eq_true] at hc
    exact hc.elim (iha hcls.1) (ihb hcls.2)
  | compl a =>
    rw [Bool.eq_false_iff]
    intro hblank
    simp [contains, contains_of_holdsBlank hcls hblank] at hc

end CharClass

namespace Pattern

/-- Whether every match takes a character that is no white space. -/
def takesVisible : Pattern → Bool
  | .one cls => cls.isVisible
  | .seq first second => first.takesVisible || second.takesVisible
  | .alt first second => first.takesVisible && second.takesVisible
  | .group _ body => body.takesVisible
  | _ => false

/-- Whether every name that is remembered is visible. -/
def namesVisible : Pattern → Bool
  | .seq first second | .alt first second => first.namesVisible && second.namesVisible
  | .star body _ => body.namesVisible
  | .group label body => (label != .name || body.takesVisible) && body.namesVisible
  | _ => true

theorem Matches.exists_visible {p : Pattern} {start stop : Cursor} (h : Matches p start stop)
    (hp : p.takesVisible = true) : ∃ taken : Text, taken.IsVisible ∧ stop.seen = taken.reverse ++ start.seen ∧
      stop.pos = start.pos + taken.length := by
  induction h with
  | empty | assert | starNil | run | starCons => simp [takesVisible] at hp
  | one hrest hclass =>
    exact ⟨_, ⟨_, List.mem_singleton_self _, CharClass.not_blank_of_isVisible hp hclass⟩, rfl, rfl⟩
  | altLeft _ ih =>
    simp only [takesVisible, Bool.and_eq_true] at hp
    exact ih hp.1
  | altRight _ ih =>
    simp only [takesVisible, Bool.and_eq_true] at hp
    exact ih hp.2
  | group _ ih => exact ih hp
  | seq hfirst hsecond ihfirst ihsecond =>
    simp only [takesVisible, Bool.or_eq_true] at hp
    have hcombine : ∀ {taken taken' : Text} {a b c : Cursor}, b.seen = taken.reverse ++ a.seen →
        b.pos = a.pos + taken.length → c.seen = taken'.reverse ++ b.seen → c.pos = b.pos + taken'.length →
        c.seen = (taken ++ taken').reverse ++ a.seen ∧ c.pos = a.pos + (taken ++ taken').length := by
      intro taken taken' a b c hseen hpos hseen' hpos'
      rw [hseen', hseen, hpos', hpos, List.reverse_append, List.append_assoc, List.length_append, Nat.add_assoc]
      exact ⟨rfl, rfl⟩
    rcases hp with hp | hp
    · obtain ⟨taken, ⟨c, hmem, hc⟩, hseen, hpos⟩ := ihfirst hp
      obtain ⟨taken', _, hseen', hpos'⟩ := hsecond.exists_taken
      exact ⟨taken ++ taken', ⟨c, List.mem_append_left _ hmem, hc⟩, hcombine hseen hpos hseen' hpos'⟩
    · obtain ⟨taken, _, hseen, hpos⟩ := hfirst.exists_taken
      obtain ⟨taken', ⟨c, hmem, hc⟩, hseen', hpos'⟩ := ihsecond hp
      exact ⟨taken ++ taken', ⟨c, List.mem_append_right _ hmem, hc⟩, hcombine hseen hpos hseen' hpos'⟩

/-- Every name remembered at a place is visible. -/
def NamesSeen (cursor : Cursor) : Prop :=
  ∀ capture, (Group.name, capture) ∈ cursor.groups → capture.text.IsVisible

theorem Matches.namesSeen {p : Pattern} {start stop : Cursor} (h : Matches p start stop)
    (hp : p.namesVisible = true) (hstart : NamesSeen start) : NamesSeen stop := by
  induction h with
  | empty | assert | starNil | one | run => exact hstart
  | altLeft _ ih =>
    simp only [namesVisible, Bool.and_eq_true] at hp
    exact ih hp.1 hstart
  | altRight _ ih =>
    simp only [namesVisible, Bool.and_eq_true] at hp
    exact ih hp.2 hstart
  | seq _ _ ihfirst ihsecond =>
    simp only [namesVisible, Bool.and_eq_true] at hp
    exact ihsecond hp.2 (ihfirst hp.1 hstart)
  | starCons _ _ ihround ihrounds =>
    exact ihrounds hp (ihround (by simpa [namesVisible] using hp) hstart)
  | @group label body start stop hbody ih =>
    simp only [namesVisible, Bool.and_eq_true, Bool.or_eq_true, bne_iff_ne] at hp
    obtain ⟨hlabel, hbodyNames⟩ := hp
    intro capture hmem
    simp only [Cursor.remember, List.mem_cons, Prod.mk.injEq] at hmem
    rcases hmem with ⟨rfl, rfl⟩ | hmem
    · obtain ⟨taken, hvisible, hseen, hpos⟩ := hbody.exists_visible (hlabel.resolve_left (by simp))
      have hcount : stop.pos - start.pos = taken.reverse.length := by
        rw [List.length_reverse]
        omega
      change Text.IsVisible (stop.seen.take (stop.pos - start.pos)).reverse
      rw [hseen, hcount, List.take_left, List.reverse_reverse]
      exact hvisible
    · exact ih hbodyNames hstart capture hmem

theorem isVisible_of_matchStart? {p : Pattern} (hp : p.namesVisible = true) {t name : Text} {found : Cursor}
    (hfound : p.matchStart? t = some found) (hname : found.text? .name = some name) : name.IsVisible := by
  obtain ⟨capture, hcapture, rfl⟩ := Option.map_eq_some_iff.1 hname
  have hseen : NamesSeen found := (matches_of_matchStart? hfound).namesSeen hp (by simp [NamesSeen, Cursor.start])
  rw [Cursor.capture?, List.lookup_eq_some_iff] at hcapture
  obtain ⟨before, after, hgroups, _⟩ := hcapture
  exact hseen capture (by rw [hgroups]; simp)

end Pattern

section Naming

theorem isVisible_of_all_isNameChar {name : Text} (hall : ∀ c ∈ name, isNameChar c = true)
    (hsome : ¬ name.isEmpty = true) : name.IsVisible := by
  cases name with
  | nil => simp at hsome
  | cons c rest => exact ⟨c, List.mem_cons_self, not_blank_of_isNameChar (hall c List.mem_cons_self)⟩

theorem isVisible_of_typedefName? {body name : Text} (hname : typedefName? body = some name) :
    name.IsVisible := by
  have hchars : ∀ {t word : Text}, (if (t.takeWhile isNameChar).isEmpty then none else some word) = some name →
      (∀ c ∈ word, c ∈ t.takeWhile isNameChar) → (t.takeWhile isNameChar).length = word.length →
        name.IsVisible := by
    intro t word hword hmem hlength
    split at hword
    · simp at hword
    next hsome =>
    obtain rfl := Option.some.inj hword
    refine isVisible_of_all_isNameChar (fun c hc => List.all_eq_true.1 List.all_takeWhile c (hmem c hc)) ?_
    rw [List.isEmpty_iff_length_eq_zero] at hsome ⊢
    omega
  unfold typedefName? at hname
  cases hcut : Text.cut? ['(', '*'] body with
  | some parts =>
    simp only [hcut] at hname
    exact hchars hname (fun _ hc => hc) rfl
  | none =>
    simp only [hcut, lastName, List.isEmpty_reverse] at hname
    exact hchars hname (fun _ hc => List.mem_reverse.1 hc) List.length_reverse.symm

theorem isVisible_of_implName? {header name : Text} (hname : implName? header = some name) :
    name.IsVisible := by
  unfold implName? at hname
  dsimp only at hname
  split at hname
  · next hstart =>
    obtain rfl := Option.some.inj hname
    revert hstart
    generalize Text.join _ _ = name
    intro hstart
    cases name with
    | nil => simp [Text.startsWhere] at hstart
    | cons c rest =>
      refine ⟨c, List.mem_cons_self, ?_⟩
      simp only [Text.startsWhere, Bool.or_eq_true, beq_iff_eq] at hstart
      rcases hstart with (((hletter | rfl) | rfl) | rfl) | rfl
      · exact not_blank_of_isLetter hletter
      all_goals decide
  · simp at hname

/-- Whether the rule gives visible names only. -/
def Rule.namesVisible (rule : Rule) : Bool :=
  match rule.naming with
  | .marked | .afterType | .member => rule.pattern.namesVisible
  | .typeDefinition | .implHeader => true

theorem Rule.isVisible_of_name? {rule : Rule} (hrule : rule.namesVisible = true) {view name : Text}
    {found : Cursor} (hfound : rule.pattern.matchStart? view = some found)
    (hname : rule.naming.name? found = some name) : name.IsVisible := by
  unfold Rule.namesVisible at hrule
  cases hnaming : rule.naming with
  | marked =>
    rw [hnaming] at hrule hname
    exact Pattern.isVisible_of_matchStart? hrule hfound hname
  | afterType =>
    rw [hnaming] at hrule hname
    simp only [Naming.name?] at hname
    split at hname
    · split at hname
      · simp at hname
      · exact Pattern.isVisible_of_matchStart? hrule hfound hname
    · exact Pattern.isVisible_of_matchStart? hrule hfound hname
  | member =>
    rw [hnaming] at hrule hname
    simp only [Naming.name?] at hname
    split at hname
    · next marked hmarked =>
      split at hname
      · simp at hname
      · obtain rfl := Option.some.inj hname
        exact Pattern.isVisible_of_matchStart? hrule hfound hmarked
    · simp at hname
  | typeDefinition =>
    rw [hnaming] at hname
    obtain ⟨body, _, hbody⟩ := Option.bind_eq_some_iff.1 hname
    exact isVisible_of_typedefName? hbody
  | implHeader =>
    rw [hnaming] at hname
    obtain ⟨header, _, hheader⟩ := Option.bind_eq_some_iff.1 hname
    exact isVisible_of_implName? hheader

end Naming

namespace Grammar

variable {grammar : Grammar}

/-- Every rule of the grammar gives visible names only. -/
def NamesVisible (grammar : Grammar) : Prop :=
  ∀ rule ∈ grammar.rules, rule.namesVisible = true

theorem NamesVisible.of_heading? (hnames : grammar.NamesVisible) {hidden : Nat} {code : Text}
    {heading : Heading} (hheading : grammar.heading? hidden code = some heading) :
    heading.name.IsVisible := by
  obtain ⟨rule, hrule, hfound⟩ := List.exists_of_findSome?_eq_some hheading
  unfold headingBy? at hfound
  dsimp only at hfound
  split at hfound
  · simp at hfound
  next found hmatch =>
  split at hfound
  · simp at hfound
  next name hname =>
  split at hfound
  · simp at hfound
  · obtain rfl := Option.some.inj hfound
    exact Rule.isVisible_of_name? (hnames rule hrule) hmatch hname

/-- In every language, what a rule accepts has a visible name. -/
theorem namesVisible (language : Language) : language.grammar.NamesVisible := by
  have hall : language.grammar.rules.all Rule.namesVisible = true := by
    cases language <;> decide +kernel
  exact List.all_eq_true.1 hall

end Grammar

end Outline
