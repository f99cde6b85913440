import Outline.Grammar.Rust
import Outline.Proofs.Attribute.Tidy
import Outline.Proofs.Merge.Placing
import Outline.Proofs.Scan.Geometry
import Outline.Proofs.Scan.Interior

namespace Outline

section Documentation

variable {text : Text}

theorem Pending.solid_of_doc? {pending : Pending} (hdoc : pending.doc? = some text) : Text.Solid text := by
  simp only [Pending.doc?, Option.ite_none_left_eq_some, Option.some.injEq, List.isEmpty_iff] at hdoc
  obtain ⟨hne, rfl⟩ := hdoc
  exact Text.solid_trim hne

/-- The text of a string literal is trimmed, on one line or on several. -/
theorem eq_nil_or_solid_of_collectStringDoc? {line : Text} {following : List Text} {further : Nat}
    (hdoc : collectStringDoc? line following = some (text, further)) : text = [] ∨ Text.Solid text := by
  unfold collectStringDoc? at hdoc
  split at hdoc
  · cases hdoc
  next quote body hopen =>
  split at hdoc
  · next inner after hcut =>
    obtain ⟨rfl, -⟩ := Prod.mk.inj (Option.some.inj hdoc)
    by_cases hne : Text.trim inner = []
    · exact .inl hne
    · exact .inr (Text.solid_trim hne)
  · split at hdoc
    · cases hdoc
    · obtain ⟨later, -, heq⟩ := Option.map_eq_some_iff.1 hdoc
      obtain ⟨rfl, -⟩ := Prod.mk.inj heq
      exact cleanLines_eq_nil_or_solid _

theorem solid_of_bodyDocstring? {body : List Text} (hdoc : bodyDocstring? body = some text) : Text.Solid text := by
  unfold bodyDocstring? at hdoc
  split at hdoc
  · cases hdoc
  · split at hdoc
    · next found further hfound =>
      split at hdoc
      · cases hdoc
      next hne =>
      obtain rfl := Option.some.inj hdoc
      exact (eq_nil_or_solid_of_collectStringDoc? hfound).resolve_left fun hnil => hne (List.isEmpty_iff.2 hnil)
    · cases hdoc

end Documentation

section Waiting

/-- Every modifier that waits is tidy. -/
def Pending.Tidy (pending : Pending) : Prop :=
  ∀ word ∈ pending.modifiers, Text.Tidy word

/-- The modifiers that wait after a line are tidy. -/
def Prelude.Tidy : Prelude → Prop
  | .blank => True
  | .absorbed pending _ => pending.Tidy
  | .code pending _ _ => pending.Tidy

/-- The modifiers that wait after a line, or are claimed by its declaration, are tidy. -/
def LineRole.Tidy : LineRole → Prop
  | .passed _ carry => carry.pending.Tidy
  | .heads _ _ pending skipped => pending.Tidy ∧ skipped.pending.Tidy

variable {pending : Pending}

theorem Pending.tidy_empty : Pending.empty.Tidy :=
  List.forall_mem_nil _

theorem Pending.Tidy.pushModifier (hpending : pending.Tidy) {word : Text} (hword : Text.Tidy word) :
    (pending.pushModifier word).Tidy := by
  intro other hmem
  rcases List.mem_append.1 hmem with hmem | hmem
  · exact hpending other hmem
  · exact List.mem_singleton.1 hmem ▸ hword

namespace Grammar

variable {grammar : Grammar} {carry : Carry} {line : Text} {rest : List Text}

theorem tidy_preludeOfCode (hpending : pending.Tidy) (lead code line : Text) (following : List Text) :
    (grammar.preludeOfCode pending lead code line following).Tidy := by
  unfold preludeOfCode
  dsimp only
  split
  · next hstarts => exact hpending.pushModifier (AttributeStyle.tidy_collect hstarts following)
  · split
    · split
      · exact Pending.tidy_empty
      · exact hpending
    · exact hpending

theorem tidy_preludeOf (hpending : pending.Tidy) (line : Text) (following : List Text) :
    (grammar.preludeOf pending line following).Tidy := by
  have hpushed (text : Text) : (pending.pushDoc text).Tidy := hpending
  unfold preludeOf
  dsimp only
  split
  · trivial
  · split
    · split
      · exact tidy_preludeOfCode (hpushed _) _ _ _ _
      · exact hpushed _
    · split
      · exact hpushed _
      · exact tidy_preludeOfCode hpending _ _ _ _

theorem tidy_pendingAfter (hpending : pending.Tidy) (lead line : Text) :
    (grammar.pendingAfter pending lead line).Tidy := by
  unfold pendingAfter
  split
  · exact Pending.tidy_empty
  · exact hpending

/-- Modifiers that wait stay tidy from line to line. -/
theorem tidy_roleOf (hcarry : carry.pending.Tidy) (line : Text) (rest : List Text) :
    (grammar.roleOf carry line rest).Tidy := by
  have hprelude := @tidy_preludeOf _ grammar hcarry line rest
  unfold roleOf
  split
  · exact hcarry
  split
  · exact hcarry
  · next heq =>
    rw [heq] at hprelude
    exact hprelude
  · next heq =>
    rw [heq] at hprelude
    dsimp only
    split
    · exact tidy_pendingAfter hprelude _ _
    · exact ⟨hprelude, tidy_pendingAfter Pending.tidy_empty _ _⟩

end Grammar

end Waiting

/-- A declaration in normal form, where some words are never names. -/
structure Declaration.Normal (reserved : List Text) (d : Declaration) : Prop where
  name : Text.Solid d.name.toList
  unreserved : d.name.toList ∉ reserved
  docstring : ∀ doc ∈ d.docstring, Text.Solid doc.toList
  modifiers : ∀ word ∈ d.modifiers.words, Text.Tidy word.toList
  children : d.children ≠ [] → d.kind.isContainer = true

/-- Others may be put into a declaration in normal form if its kind may hold them. -/
theorem Declaration.Normal.withChildren {reserved : List Text} {d : Declaration} (hnormal : d.Normal reserved)
    {children : List Declaration} (hchildren : children ≠ [] → d.kind.isContainer = true) :
    (d.withChildren children).Normal reserved :=
  ⟨hnormal.name, hnormal.unreserved, hnormal.docstring, hnormal.modifiers, hchildren⟩

namespace Grammar

variable {grammar : Grammar} {limits : Limits} {index : Nat} {attrs : Text} {heading : Heading} {extent : Extent}
  {pending : Pending} {window : List Text} {declared : Declaration}

/-- The words that the grammar records are tidy, and so are the names that it gives solid. -/
structure Neat (grammar : Grammar) : Prop where
  names : grammar.NamesSolid
  modifiers : ∀ word ∈ grammar.modifiers, Text.Tidy word

/-- The documentation of a declaration waited for it or opens its body; it is solid. -/
theorem solid_docstring {doc : Text} (hdoc : (if grammar.docs.bodyString then
      if extent.hasInterior then
        bodyDocstring? (windowOf window (extent.headerEnd + 1 - index) (extent.last - index))
      else none
    else pending.doc?) = some doc) : Text.Solid doc := by
  split at hdoc
  · split at hdoc
    · exact solid_of_bodyDocstring? hdoc
    · cases hdoc
  · exact Pending.solid_of_doc? hdoc

/-- The modifiers of a declaration waited for it, are attributes on its line, or are words of the grammar. -/
theorem Neat.tidy_modifiers (hneat : grammar.Neat) (hpending : pending.Tidy) {before word : Text}
    (hword : word ∈ pending.modifiers ++ grammar.attributes.inline (attrs ++ before) ++
      wordsIn grammar.modifiers before) : Text.Tidy word := by
  rcases List.mem_append.1 hword with hword | hword
  · rcases List.mem_append.1 hword with hword | hword
    · exact hpending word hword
    · exact AttributeStyle.tidy_of_mem_inline hword
  · exact hneat.modifiers word (List.contains_iff_mem.1 (List.mem_filter.1 hword).2)

/-- What a line declares is in normal form, with nothing inside it yet. -/
theorem Neat.normal_of_declaration? (hneat : grammar.Neat) {hidden : Nat} {code : Text}
    (hheading : grammar.heading? hidden code = some heading) (hpending : pending.Tidy)
    (hdeclared : grammar.declaration? index attrs heading extent pending window = some declared) :
    declared.Normal grammar.reserved := by
  have hname := hneat.names.of_heading? hheading
  have hreserved := (of_heading?_eq_some hheading).2.1
  obtain ⟨bare, hbare, rfl⟩ := Option.map_eq_some_iff.1 hdeclared
  simp only [Declaration.declare?, String.toList_ofList, hname.trim] at hbare
  rw [if_neg (by simpa using hname.ends.ne_nil)] at hbare
  obtain rfl := Option.some.inj hbare
  refine ⟨?_, ?_, ?_, ?_, ?_⟩
  · exact String.toList_ofList.symm ▸ hname
  · exact String.toList_ofList.symm ▸ hreserved
  · intro doc hdoc
    obtain ⟨text, htext, rfl⟩ := Option.map_eq_some_iff.1 (Option.filter_eq_some_iff.1 hdoc).1
    exact String.toList_ofList.symm ▸ solid_docstring htext
  · intro word hword
    obtain ⟨text, htext, rfl⟩ := List.mem_map.1 ((Modifiers.mem_insertAll.1 hword).resolve_left (by rintro ⟨⟩))
    exact String.toList_ofList.symm ▸ hneat.tidy_modifiers hpending htext
  · exact fun hne => absurd rfl hne

/-- What stands inside a declaration is in normal form if every scan of the interior is, and is there only if the kind
of the declaration may hold it. -/
theorem normal_scanInside_of_scan {reserved : List Text} {depth : Nat} (heading : Heading) {rest : List Text}
    (hscan : ∀ progress : Progress, ∀ d ∈ Declaration.walkAll (grammar.scanLines limits (depth + 1)
      (extent.headerEnd + 1) .start progress (grammar.interior index extent rest)).1, d.Normal reserved)
    (declared : Declaration) (noted : Progress) :
    ((grammar.scanInside limits depth index heading extent declared noted rest).1 ≠ [] →
        heading.rule.kind.isContainer = true) ∧
      ∀ d ∈ Declaration.walkAll (grammar.scanInside limits depth index heading extent declared noted rest).1,
        d.Normal reserved := by
  rcases scanInside_cases grammar limits depth index heading extent declared noted rest with
    ⟨-, hinside⟩ | ⟨-, -, hinside⟩ | ⟨hopen, -, hinside⟩ <;> rw [hinside]
  · exact ⟨fun hne => absurd rfl hne, List.forall_mem_nil _⟩
  · exact ⟨fun hne => absurd rfl hne, List.forall_mem_nil _⟩
  · exact ⟨fun _ => (Bool.and_eq_true_iff.1 hopen).1, hscan _⟩

/-- What a scan finds, on every level, is in normal form. -/
theorem Neat.normal_scanLines (hneat : grammar.Neat) (limits : Limits) (window : List Text) (depth index : Nat)
    {carry : Carry} (hcarry : carry.pending.Tidy) (progress : Progress) :
    ∀ d ∈ Declaration.walkAll (grammar.scanLines limits depth index carry progress window).1,
      d.Normal grammar.reserved := by
  induction window using window_induction generalizing depth index carry progress with
  | nil =>
    rw [scanLines_nil]
    exact List.forall_mem_nil _
  | cons line rest ih =>
    by_cases hstopped : progress.exhausted = true
    · rw [scanLines_exhausted hstopped]
      exact List.forall_mem_nil _
    have hrunning : progress.exhausted = false := by simpa using hstopped
    have htidy := @tidy_roleOf grammar carry hcarry line rest
    cases hrole : grammar.roleOf carry line rest with
    | passed further carried =>
      rw [hrole] at htidy
      rw [scanLines_passed hrunning hrole]
      exact ih (rest.drop further) (by rw [List.length_drop]; omega) _ _ htidy _
    | heads heading attrs pending skipped =>
      rw [hrole] at htidy
      by_cases hfull : limits.maxDeclarations ≤ progress.emitted
      · rw [scanLines_full hrunning hrole hfull]
        exact List.forall_mem_nil _
      obtain ⟨extent, hextent⟩ : ∃ extent, grammar.extent limits heading.rule.body index (line :: rest) =
        extent := ⟨_, rfl⟩
      have hheading := headingOn?_of_heads hrole
      obtain ⟨declared, hdeclared⟩ := exists_declaration (hneat.names.of_heading? hheading).isVisible.trim_ne
      rw [scanLines_opening hrunning hrole (Nat.not_le.1 hfull) hextent hdeclared]
      obtain ⟨hstart, hheader, hlast⟩ := hextent ▸ grammar.extent_bounds limits heading.rule.body index line rest
      have hkind := (of_declaration?_eq_some hdeclared (by omega)).1
      have hinside := normal_scanInside_of_scan heading (fun progress => ih (grammar.interior index extent rest)
        (length_interior_le grammar index extent rest).2 (depth + 1) (extent.headerEnd + 1) Pending.tidy_empty progress)
        declared (progress.noteExtent index heading extent)
      rw [Declaration.walkAll_cons]
      refine List.forall_mem_cons.2 ⟨?_, List.forall_mem_append.2 ⟨hinside.2, ?_⟩⟩
      · exact (hneat.normal_of_declaration? hheading htidy.1 hdeclared).withChildren (hkind ▸ hinside.1)
      · exact ih (rest.drop (extent.last - index)) (by rw [List.length_drop]; omega) _ _ Pending.tidy_empty _

/-- In every language words that are recorded are tidy and names are solid. -/
theorem neat (language : Language) : language.grammar.Neat where
  names := namesSolid language
  modifiers := by
    have hall : language.grammar.modifiers.all (fun word => !word.isEmpty && word.all (!isBlank ·)) = true := by
      cases language <;> decide +kernel
    intro word hword
    obtain ⟨hne, hword⟩ := Bool.and_eq_true_iff.1 (List.all_eq_true.1 hall word hword)
    exact Text.tidy_of_forall (by simpa using hne) fun c hc => by simpa using List.all_eq_true.1 hword c hc

/-- Every declaration of an outline, at any depth, is in normal form: names and documentation are solid, modifiers
are tidy, no name is reserved, and only a container holds others. This is so in every language, with all limits and
for every text. -/
theorem scan_normal (language : Language) (limits : Limits) (t : Text) :
    ∀ d ∈ Declaration.walkAll (language.grammar.scan limits t).1, d.Normal language.grammar.reserved :=
  (neat language).normal_scanLines limits (Text.lines t) 0 0 Pending.tidy_empty .start

/-- A function in a module, with documentation, an attribute on two lines and another on its own line. -/
theorem scan_normal_attributes :
    ∃ d ∈ Declaration.walkAll (rust.scan {}
        "mod m {
  ///  Doc. 
  #[a(
  b)]
  #[c  	d] pub fn f() {}
}
".toList).1,
      (d.name, d.docstring, d.modifiers.words) = ("f", some "Doc.", ["#[a( b)]", "#[c d]", "pub"]) ∧
        d.Normal rust.reserved := by
  have hfound : ("f", some "Doc.", ["#[a( b)]", "#[c d]", "pub"]) ∈ (Declaration.walkAll (rust.scan {}
      "mod m {
  ///  Doc. 
  #[a(
  b)]
  #[c  	d] pub fn f() {}
}
".toList).1).map
        fun d => (d.name, d.docstring, d.modifiers.words) := by
    decide +kernel
  obtain ⟨d, hmem, heq⟩ := List.mem_map.1 hfound
  exact ⟨d, hmem, heq, scan_normal .rust {} _ d hmem⟩

end Grammar

end Outline
