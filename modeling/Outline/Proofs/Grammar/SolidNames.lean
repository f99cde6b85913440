import Outline.Proofs.Doc.Blocks
import Outline.Proofs.Grammar.Names
import Outline.Proofs.Pattern.Taking

namespace Outline

namespace Text

variable {t s u : Text}

theorem startsSolid_append_of_or (hs : s = [] ∨ StartsSolid s) (hu : s = [] → u = [] ∨ StartsSolid u) :
    s ++ u = [] ∨ StartsSolid (s ++ u) := by
  rcases hs with rfl | hs
  · exact hu rfl
  · exact .inr (hs.append u)

theorem endsSolid_append_of_or (hu : u = [] ∨ EndsSolid u) (hs : u = [] → s = [] ∨ EndsSolid s) :
    s ++ u = [] ∨ EndsSolid (s ++ u) := by
  rcases hu with rfl | hu
  · rw [List.append_nil]
    exact hs rfl
  · exact .inr (hu.append s)

theorem eq_nil_or_solid_of_forall (ht : ∀ c ∈ t, isBlank c = false) : t = [] ∨ Solid t := by
  by_cases hne : t = []
  · exact .inl hne
  · exact .inr (solid_of_forall hne ht)

theorem startsSolid_flatten_of_or {parts : List Text} (hparts : ∀ part ∈ parts, part = [] ∨ StartsSolid part) :
    parts.flatten = [] ∨ StartsSolid parts.flatten := by
  induction parts with
  | nil => exact .inl rfl
  | cons part parts ih =>
    obtain ⟨hpart, hparts⟩ := List.forall_mem_cons.1 hparts
    exact startsSolid_append_of_or hpart fun _ => ih hparts

theorem endsSolid_flatten_of_or {parts : List Text} (hparts : ∀ part ∈ parts, part = [] ∨ EndsSolid part) :
    parts.flatten = [] ∨ EndsSolid parts.flatten := by
  induction parts with
  | nil => exact .inl rfl
  | cons part parts ih =>
    obtain ⟨hpart, hparts⟩ := List.forall_mem_cons.1 hparts
    exact endsSolid_append_of_or (ih hparts) fun _ => hpart

theorem Solid.isVisible (ht : Solid t) : t.IsVisible := by
  obtain ⟨c, rest, rfl, hc⟩ := ht.starts
  exact ⟨c, List.mem_cons_self, hc⟩

/-- What is trimmed of a visible text is solid. -/
theorem IsVisible.solid_trim (ht : t.IsVisible) : Solid (trim t) :=
  Text.solid_trim (by simpa using ht.trim_ne)

theorem forall_of_mem_splitWhere {p : Char → Bool} {piece : Text} (hmem : piece ∈ splitWhere p t) :
    ∀ c ∈ piece, p c = false := by
  induction t generalizing piece with
  | nil =>
    obtain rfl := List.mem_singleton.1 hmem
    exact List.forall_mem_nil _
  | cons c t ih =>
    rw [splitWhere] at hmem
    split at hmem
    · rcases List.mem_cons.1 hmem with rfl | hmem
      · exact List.forall_mem_nil _
      · exact ih hmem
    next hc =>
    have hc : p c = false := by simpa using hc
    split at hmem
    · obtain rfl := List.mem_singleton.1 hmem
      exact List.forall_mem_singleton.2 hc
    · next first pieces hsplit =>
      rcases List.mem_cons.1 hmem with rfl | hmem
      · exact List.forall_mem_cons.2 ⟨hc, ih (by rw [hsplit]; exact List.mem_cons_self)⟩
      · exact ih (by rw [hsplit]; exact List.mem_cons_of_mem _ hmem)

theorem solid_of_mem_words {word : Text} (hmem : word ∈ words t) : Solid word := by
  obtain ⟨hpiece, hne⟩ := List.mem_filter.1 hmem
  exact solid_of_forall (by simpa using hne) (forall_of_mem_splitWhere hpiece)

end Text

namespace Pattern

variable {p : Pattern} {t : Text}

/-- Whether no match begins with white space. -/
def opensSolid : Pattern → Bool
  | .one cls | .run cls _ => cls.isVisible
  | .seq first second => first.opensSolid && (first.takesVisible || second.opensSolid)
  | .alt first second => first.opensSolid && second.opensSolid
  | .star body _ | .group _ body => body.opensSolid
  | .empty | .assert _ => true

/-- Whether no match ends with white space. -/
def closesSolid : Pattern → Bool
  | .one cls | .run cls _ => cls.isVisible
  | .seq first second => second.closesSolid && (second.takesVisible || first.closesSolid)
  | .alt first second => first.closesSolid && second.closesSolid
  | .star body _ | .group _ body => body.closesSolid
  | .empty | .assert _ => true

/-- Whether every match is a solid text. -/
def isSolid (p : Pattern) : Bool :=
  p.takesVisible && (p.opensSolid && p.closesSolid)

theorem Takes.ne_nil (htakes : Takes p t) (hp : p.takesVisible = true) : t ≠ [] := by
  obtain ⟨start, stop, hmatches, hrest⟩ := htakes
  obtain ⟨taken, ⟨c, hmem, -⟩, -, hpos⟩ := hmatches.exists_visible hp
  obtain ⟨taken', hrest', -, hpos'⟩ := hmatches.exists_taken
  obtain rfl := List.append_cancel_right (hrest.symm.trans hrest')
  have hlength := List.length_pos_of_mem hmem
  rw [← List.length_pos_iff]
  omega

/-- What a run or a single character of a visible class takes is solid. -/
theorem Takes.eq_nil_or_solid_of_class {cls : CharClass} (hcls : cls.isVisible = true)
    (htaken : ∀ c ∈ t, cls.contains c = true) : t = [] ∨ Text.Solid t :=
  Text.eq_nil_or_solid_of_forall fun c hc => CharClass.not_blank_of_isVisible hcls (htaken c hc)

theorem Takes.eq_nil_or_startsSolid (htakes : Takes p t) (hp : p.opensSolid = true) :
    t = [] ∨ Text.StartsSolid t := by
  induction p generalizing t with
  | empty => exact .inl (eq_nil_of_takes_empty htakes)
  | assert => exact .inl (eq_nil_of_takes_assert htakes)
  | one cls =>
    obtain ⟨c, rfl, hclass⟩ := exists_of_takes_one htakes
    exact (eq_nil_or_solid_of_class hp (List.forall_mem_singleton.2 hclass)).imp_right Text.Solid.starts
  | run cls greedy => exact (eq_nil_or_solid_of_class hp (forall_of_takes_run htakes)).imp_right Text.Solid.starts
  | seq first second ihfirst ihsecond =>
    simp only [opensSolid, Bool.and_eq_true, Bool.or_eq_true] at hp
    obtain ⟨s, u, rfl, hs, hu⟩ := exists_of_takes_seq htakes
    refine Text.startsSolid_append_of_or (ihfirst hs hp.1) fun hnil => ihsecond hu ?_
    refine hp.2.resolve_left fun hvisible => ?_
    exact hs.ne_nil hvisible hnil
  | alt first second ihfirst ihsecond =>
    simp only [opensSolid, Bool.and_eq_true] at hp
    exact (takes_or_takes_of_alt htakes).elim (ihfirst · hp.1) (ihsecond · hp.2)
  | star body greedy ih =>
    obtain ⟨parts, rfl, hparts⟩ := exists_of_takes_star htakes
    exact Text.startsSolid_flatten_of_or fun part hmem => ih (hparts part hmem) hp
  | group label body ih => exact ih (takes_of_group htakes) hp

theorem Takes.eq_nil_or_endsSolid (htakes : Takes p t) (hp : p.closesSolid = true) : t = [] ∨ Text.EndsSolid t := by
  induction p generalizing t with
  | empty => exact .inl (eq_nil_of_takes_empty htakes)
  | assert => exact .inl (eq_nil_of_takes_assert htakes)
  | one cls =>
    obtain ⟨c, rfl, hclass⟩ := exists_of_takes_one htakes
    exact (eq_nil_or_solid_of_class hp (List.forall_mem_singleton.2 hclass)).imp_right Text.Solid.ends
  | run cls greedy => exact (eq_nil_or_solid_of_class hp (forall_of_takes_run htakes)).imp_right Text.Solid.ends
  | seq first second ihfirst ihsecond =>
    simp only [closesSolid, Bool.and_eq_true, Bool.or_eq_true] at hp
    obtain ⟨s, u, rfl, hs, hu⟩ := exists_of_takes_seq htakes
    refine Text.endsSolid_append_of_or (ihsecond hu hp.1) fun hnil => ihfirst hs (hp.2.resolve_left fun hvisible => ?_)
    exact hu.ne_nil hvisible hnil
  | alt first second ihfirst ihsecond =>
    simp only [closesSolid, Bool.and_eq_true] at hp
    exact (takes_or_takes_of_alt htakes).elim (ihfirst · hp.1) (ihsecond · hp.2)
  | star body greedy ih =>
    obtain ⟨parts, rfl, hparts⟩ := exists_of_takes_star htakes
    exact Text.endsSolid_flatten_of_or fun part hmem => ih (hparts part hmem) hp
  | group label body ih => exact ih (takes_of_group htakes) hp

theorem Takes.solid (htakes : Takes p t) (hp : p.isSolid = true) : Text.Solid t := by
  simp only [isSolid, Bool.and_eq_true] at hp
  obtain ⟨hvisible, hopens, hcloses⟩ := hp
  have hne := htakes.ne_nil hvisible
  exact ⟨(htakes.eq_nil_or_startsSolid hopens).resolve_left hne, (htakes.eq_nil_or_endsSolid hcloses).resolve_left hne⟩

/-- What is remembered of a solid part is solid. -/
theorem Matches.solid_of_text? {label : Group} {start stop : Cursor} (hmatches : Matches p start stop)
    (hp : p.everyGroup label isSolid = true) (hstart : start.groups = []) (htext : stop.text? label = some t) :
    Text.Solid t :=
  hmatches.holds_of_text? (fun _ _ hbody htakes => htakes.solid hbody) hp hstart htext

end Pattern

section Naming

theorem solid_of_typedefName? {body name : Text} (hname : typedefName? body = some name) : Text.Solid name := by
  have hchars : ∀ c ∈ name, isNameChar c = true := by
    unfold typedefName? at hname
    cases hcut : Text.cut? ['(', '*'] body with
    | some parts =>
      simp only [hcut, Option.ite_none_left_eq_some, Option.some.injEq] at hname
      obtain ⟨-, rfl⟩ := hname
      exact List.all_eq_true.1 List.all_takeWhile
    | none =>
      simp only [hcut, Option.ite_none_left_eq_some, Option.some.injEq] at hname
      obtain ⟨-, rfl⟩ := hname
      exact fun c hc => List.all_eq_true.1 List.all_takeWhile c (List.mem_reverse.1 hc)
  obtain ⟨c, hmem, -⟩ := isVisible_of_typedefName? hname
  exact Text.solid_of_forall (List.ne_nil_of_mem hmem) fun c hc => not_blank_of_isNameChar (hchars c hc)

/-- The name of an implementation block is made up of words with single spaces between them. -/
theorem solid_of_implName? {header name : Text} (hname : implName? header = some name) : Text.Solid name := by
  obtain ⟨t, rfl⟩ : ∃ t, name = Text.join [' '] (Text.words t) := by
    unfold implName? at hname
    dsimp only at hname
    split at hname
    · exact ⟨_, (Option.some.inj hname).symm⟩
    · cases hname
  have hne : Text.words t ≠ [] := by
    intro hnil
    obtain ⟨c, hmem, -⟩ := isVisible_of_implName? hname
    rw [hnil] at hmem
    cases hmem
  exact Text.solid_join (fun word hword => (Text.solid_of_mem_words (List.mem_of_mem_head? hword)).starts)
    (fun word hword => (Text.solid_of_mem_words (List.mem_of_getLast? hword)).ends) hne

/-- A name is the one that the pattern marks, or is found in a longer stretch. -/
theorem Naming.name?_cases {naming : Naming} {found : Cursor} {name : Text} (hname : naming.name? found = some name) :
    found.text? .name = some name ∨ (∃ body, typedefName? body = some name) ∨
      ∃ header, implName? header = some name := by
  cases naming with
  | marked => exact .inl hname
  | afterType =>
    simp only [name?] at hname
    split at hname
    · split at hname
      · cases hname
      · exact .inl hname
    · exact .inl hname
  | member =>
    simp only [name?] at hname
    split at hname
    · next marked hmarked =>
      split at hname
      · cases hname
      · exact .inl (hmarked.trans hname)
    · cases hname
  | typeDefinition =>
    obtain ⟨body, -, hbody⟩ := Option.bind_eq_some_iff.1 hname
    exact .inr (.inl ⟨body, hbody⟩)
  | implHeader =>
    obtain ⟨header, -, hheader⟩ := Option.bind_eq_some_iff.1 hname
    exact .inr (.inr ⟨header, hheader⟩)

end Naming

namespace Grammar

variable {grammar : Grammar}

/-- Every name that a rule of the grammar marks is solid. -/
def NamesSolid (grammar : Grammar) : Prop :=
  ∀ rule ∈ grammar.rules, rule.pattern.everyGroup .name Pattern.isSolid = true

/-- A line that declares something is matched by a rule of the grammar, its name is not reserved, and what stands before
the name opens the code. -/
theorem of_heading?_eq_some {hidden : Nat} {code : Text} {heading : Heading}
    (hheading : grammar.heading? hidden code = some heading) :
    heading.rule ∈ grammar.rules ∧ heading.name ∉ grammar.reserved ∧ heading.before <+: code ∧
      ∃ found, heading.rule.pattern.matchStart? (Text.spaces hidden ++ code) = some found ∧
        heading.rule.naming.name? found = some heading.name := by
  obtain ⟨rule, hrule, hfound⟩ := List.exists_of_findSome?_eq_some hheading
  unfold headingBy? at hfound
  dsimp only at hfound
  split at hfound
  · cases hfound
  next found hmatch =>
  split at hfound
  · cases hfound
  next name hname =>
  split at hfound
  · cases hfound
  next hfree =>
  obtain rfl := Option.some.inj hfound
  have hreserved : name ∉ grammar.reserved := fun hmem => hfree (by simp [hmem])
  exact ⟨hrule, hreserved, List.take_prefix _ code, found, hmatch, hname⟩

theorem NamesSolid.solid_of_name? (hnames : grammar.NamesSolid) {rule : Rule} (hrule : rule ∈ grammar.rules)
    {view name : Text} {found : Cursor} (hfound : rule.pattern.matchStart? view = some found)
    (hname : rule.naming.name? found = some name) : Text.Solid name := by
  rcases Naming.name?_cases hname with hmarked | ⟨body, hbody⟩ | ⟨header, hheader⟩
  · exact (Pattern.matches_of_matchStart? hfound).solid_of_text? (hnames rule hrule) rfl hmarked
  · exact solid_of_typedefName? hbody
  · exact solid_of_implName? hheader

theorem NamesSolid.of_heading? (hnames : grammar.NamesSolid) {hidden : Nat} {code : Text} {heading : Heading}
    (hheading : grammar.heading? hidden code = some heading) : Text.Solid heading.name := by
  obtain ⟨hrule, -, -, found, hfound, hname⟩ := of_heading?_eq_some hheading
  exact hnames.solid_of_name? hrule hfound hname

/-- In every language, what a rule accepts has a solid name. -/
theorem namesSolid (language : Language) : language.grammar.NamesSolid := by
  have hall : language.grammar.rules.all (fun rule => rule.pattern.everyGroup .name Pattern.isSolid) = true := by
    cases language <;> decide +kernel
  exact List.all_eq_true.1 hall

end Grammar

end Outline
