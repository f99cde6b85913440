import Outline.Grammar.All
import Outline.Proofs.Pattern.Matching
import Outline.Proofs.Text.Offsets

namespace Outline

namespace Pattern

variable {p : Pattern} {start stop : Cursor} {t : Text}

/-- The remembered part stands in the text at its place. -/
def Located (t : Text) (capture : Capture) : Prop :=
  ∃ before after, t = before ++ capture.text ++ after ∧ before.length = capture.start

/-- What a match remembers stands in the text at the place that is remembered with it. -/
theorem Matches.located (h : Matches p start stop) (hpos : start.pos = start.seen.length)
    (htext : start.seen.reverse ++ start.rest = t)
    (hstart : ∀ label capture, (label, capture) ∈ start.groups → Located t capture) :
    ∀ label capture, (label, capture) ∈ stop.groups → Located t capture := by
  have hwithin : ∀ {p : Pattern} {start stop : Cursor}, Matches p start stop → start.pos = start.seen.length →
      start.seen.reverse ++ start.rest = t →
        stop.pos = stop.seen.length ∧ stop.seen.reverse ++ stop.rest = t := by
    intro p start stop h hpos htext
    obtain ⟨taken, hrest, hseen, hstop⟩ := h.exists_taken
    constructor
    · rw [hstop, hseen, List.length_append, List.length_reverse, hpos, Nat.add_comm]
    · rw [← htext, hseen, hrest, List.reverse_append, List.reverse_reverse, List.append_assoc]
  induction h with
  | empty | one | run | assert | starNil => exact hstart
  | altLeft _ ih | altRight _ ih => exact ih hpos htext hstart
  | seq hfirst _ ihfirst ihsecond | starCons hfirst _ ihfirst ihsecond =>
    obtain ⟨hpos', htext'⟩ := hwithin hfirst hpos htext
    exact ihsecond hpos' htext' (ihfirst hpos htext hstart)
  | @group _ _ start stop hbody ih =>
    intro label capture hmem
    rcases List.mem_cons.1 hmem with heq | hmem
    · obtain ⟨-, rfl⟩ := Prod.mk.inj heq
      obtain ⟨taken, hrest, hseen, hstop⟩ := hbody.exists_taken
      have hcount : stop.pos - start.pos = taken.reverse.length := by
        rw [List.length_reverse]
        omega
      refine ⟨start.seen.reverse, stop.rest, ?_, ?_⟩
      · rw [← htext, hrest, hseen, hcount, List.take_left, List.reverse_reverse, List.append_assoc]
      · rw [List.length_reverse, hpos]
    · exact ih hpos htext hstart label capture hmem

/-- In a match at the start of a text every remembered part stands in the text at its place. -/
theorem located_of_matchStart? {found : Cursor} (hfound : p.matchStart? t = some found) {label : Group}
    {capture : Capture} (hcapture : found.capture? label = some capture) : Located t capture := by
  rw [Cursor.capture?, List.lookup_eq_some_iff] at hcapture
  obtain ⟨before, after, hgroups, -⟩ := hcapture
  refine (matches_of_matchStart? hfound).located rfl rfl (fun label capture hmem => ?_) label capture ?_
  · cases hmem
  · rw [hgroups]
    exact List.mem_append_right _ List.mem_cons_self

end Pattern

namespace DocStyle

/-- The byte offset at which code goes on behind a documentation block on the line; nothing at all if a part of the
line that is looked at cannot be cut out. -/
def codeOffset? (style : DocStyle) (line : Text) : Option (Option Nat) :=
  match style.block with
  | none => some none
  | some (opener, closer) =>
    match Text.offsetOf? opener line with
    | none => some none
    | some before => do
      let opened ← Text.from? (before + Text.byteSize opener) line
      match Text.offsetOf? closer opened with
      | none => return none
      | some inside =>
        let stop := before + Text.byteSize opener + inside + Text.byteSize closer
        let code ← Text.from? stop line
        return if Text.isBlankText code then none else some stop

/-- What comes before the code and the code make up the line. -/
theorem eq_of_codeAfterBlockDoc? {style : DocStyle} {line lead code : Text}
    (hcode : style.codeAfterBlockDoc? line = some (lead, code)) : line = lead ++ code := by
  rw [codeAfterBlockDoc?] at hcode
  split at hcode
  · cases hcode
  · next opener closer _ =>
    split at hcode
    · cases hcode
    · next before opened hopener =>
      split at hcode
      · cases hcode
      · next inside rest hcloser =>
        split at hcode
        · cases hcode
        · cases hcode
          rw [Text.eq_of_cut?_eq_some hopener, Text.eq_of_cut?_eq_some hcloser]
          simp only [List.append_assoc]

/-- The offset is the size of what comes before the code. -/
theorem codeOffset?_eq (style : DocStyle) (line : Text) :
    style.codeOffset? line = some ((style.codeAfterBlockDoc? line).map fun parts => Text.byteSize parts.1) := by
  rw [codeOffset?, codeAfterBlockDoc?]
  cases style.block with
  | none => rfl
  | some marks =>
    obtain ⟨opener, closer⟩ := marks
    dsimp only [Text.offsetOf?]
    cases hopener : Text.cut? opener line with
    | none => rfl
    | some parts =>
      obtain ⟨before, opened⟩ := parts
      obtain rfl := Text.eq_of_cut?_eq_some hopener
      dsimp only [Option.map_some]
      rw [← Text.byteSize_append, Text.from?_append]
      dsimp only [Option.bind_eq_bind, Option.bind_some]
      cases hcloser : Text.cut? closer opened with
      | none => rfl
      | some parts =>
        obtain ⟨inside, code⟩ := parts
        obtain rfl := Text.eq_of_cut?_eq_some hcloser
        have hline : before ++ opener ++ (inside ++ closer ++ code) = before ++ opener ++ inside ++ closer ++ code := by
          simp only [List.append_assoc]
        dsimp only [Option.map_some]
        rw [← Text.byteSize_append, ← Text.byteSize_append, hline, Text.from?_append]
        dsimp only [Option.bind_eq_bind, Option.bind_some]
        split <;> rfl

end DocStyle

namespace AttributeStyle

/-- How many bytes the attributes take that stand before other code, with the white space around them. -/
def leadingLength (style : AttributeStyle) (t : Text) : Nat :=
  Text.byteSize t - Text.byteSize (style.splitLeading t).2

/-- The complete attributes and the rest make up the text. -/
theorem eq_of_leadingHashAttributes (t : Text) :
    t = (leadingHashAttributes t).1.flatMap (fun gapped => gapped.1 ++ gapped.2) ++ (leadingHashAttributes t).2 := by
  fun_induction leadingHashAttributes t with
  | case1 => rfl
  | case2 t gap mark rest hattribute hshorter later ih =>
    rw [(eq_of_hashAttribute?_eq_some hattribute).1, List.flatMap_cons, List.append_assoc (gap ++ mark)]
    exact congrArg (gap ++ mark ++ ·) ih

/-- The attributes and the code make up the text. -/
theorem eq_of_splitLeading (style : AttributeStyle) (t : Text) :
    t = (style.splitLeading t).1 ++ (style.splitLeading t).2 := by
  have hparts := eq_of_leadingHashAttributes t
  cases style with
  | absent | atSign | bracket => rfl
  | hash =>
    unfold splitLeading
    dsimp only
    split
    · rfl
    · next attributes rest _ hleading =>
      rw [hleading] at hparts
      split
      · rfl
      · have hrest : rest = Text.leadingBlank rest ++ Text.trimStart rest := List.takeWhile_append_dropWhile.symm
        dsimp only
        rw [List.append_assoc, ← hrest]
        exact hparts

end AttributeStyle

namespace Grammar

variable {grammar : Grammar} {line lead text code view name : Text} {rule : Rule} {found : Cursor} {hidden : Nat}

/-- The match and the name by which a rule applies to a line as it is shown to the rules. -/
def accepted? (grammar : Grammar) (view : Text) (rule : Rule) : Option (Cursor × Text) :=
  match rule.pattern.matchStart? view with
  | none => none
  | some found =>
    match rule.naming.name? found with
    | none => none
    | some name => if name.isEmpty || grammar.reserved.contains name then none else some (found, name)

theorem headingBy?_eq_map (grammar : Grammar) (hidden : Nat) (code : Text) (rule : Rule) :
    grammar.headingBy? hidden code rule =
      (grammar.accepted? (Text.spaces hidden ++ code) rule).map fun parts =>
        ⟨rule, parts.2, code.take (nameStart (Text.spaces hidden ++ code) parts.2 parts.1 - hidden)⟩ := by
  rw [headingBy?, accepted?]
  cases rule.pattern.matchStart? (Text.spaces hidden ++ code) with
  | none => rfl
  | some found =>
    dsimp only
    cases rule.naming.name? found with
    | none => rfl
    | some name =>
      dsimp only
      split <;> rfl

theorem matchStart?_of_accepted? (haccepted : grammar.accepted? view rule = some (found, name)) :
    rule.pattern.matchStart? view = some found := by
  rw [accepted?] at haccepted
  split at haccepted
  · cases haccepted
  · next other hfound =>
    split at haccepted
    · cases haccepted
    · split at haccepted
      · cases haccepted
      · cases haccepted
        exact hfound

/-- The byte offset of the name in the line as it is shown: that of the marked name, or else that of the first place
where the name occurs, or else the end of the line. -/
def nameOffset? (line view name : Text) (found : Cursor) : Option Nat :=
  match found.capture? .name with
  | some capture => Text.offsetBehind? capture.start view
  | none => some ((Text.offsetOf? name view).getD (Text.byteSize line))

/-- What is cut out of the line of a declaration, and where. -/
structure Sections where
  codeStart : Nat
  attrsEnd : Nat
  nameStart : Nat
  /-- The line as it is shown to the rules. -/
  view : Text
  name : Text
  /-- From the start of the code to the name. -/
  head : Text
  /-- From the end of the attributes to the name. -/
  before : Text
deriving DecidableEq, Repr

/-- The sections of a line from given offset on, if the rule applies to it; nothing at all if a section cannot be cut
out. -/
def sections? (grammar : Grammar) (line : Text) (codeStart : Nat) (rule : Rule) : Option (Option Sections) := do
  let text ← Text.from? codeStart line
  let attrsEnd := codeStart + grammar.attributes.leadingLength text
  let shown ← Text.from? attrsEnd line
  let view := Text.spaces attrsEnd ++ shown
  match grammar.accepted? view rule with
  | none => return none
  | some (found, name) =>
    let offset ← nameOffset? line view name found
    let nameStart := max offset attrsEnd
    let head ← Text.slice? codeStart nameStart line
    let before ← Text.slice? attrsEnd nameStart line
    return some ⟨codeStart, attrsEnd, nameStart, view, name, head, before⟩

/-- The name starts behind as many characters of the view as the heading says. -/
theorem nameOffset?_eq (hfound : rule.pattern.matchStart? view = some found)
    (hsize : Text.byteSize view = Text.byteSize line) :
    nameOffset? line view name found = some (Text.byteSize (view.take (nameStart view name found))) := by
  rw [nameOffset?, nameStart]
  cases hcapture : found.capture? .name with
  | some capture =>
    obtain ⟨before, after, hview, hlength⟩ := Pattern.located_of_matchStart? hfound hcapture
    have hle : capture.start ≤ view.length := by
      rw [hview, ← hlength, List.append_assoc, List.length_append]
      exact Nat.le_add_right _ _
    exact if_pos hle
  | none =>
    dsimp only [Text.offsetOf?]
    cases hcut : Text.cut? name view with
    | some parts =>
      obtain ⟨before, after⟩ := parts
      rw [Text.eq_of_cut?_eq_some hcut, List.append_assoc]
      simp
    | none => simp [hsize]

theorem byteSize_spaces (n : Nat) : Text.byteSize (Text.spaces n) = n := by
  induction n with
  | zero => rfl
  | succ n ih =>
    have hcons : Text.spaces (n + 1) = ' ' :: Text.spaces n := rfl
    rw [hcons, Text.byteSize_cons, ih, Nat.add_comm]
    rfl

/-- A place in the view that is not before the code is one in the code. -/
theorem max_byteSize_take (hidden count : Nat) (code : Text) :
    max (Text.byteSize ((Text.spaces hidden ++ code).take count)) hidden =
      hidden + Text.byteSize (code.take (count - hidden)) := by
  have hlength : (Text.spaces hidden).length = hidden := List.length_replicate
  rw [List.take_append, hlength, Text.byteSize_append]
  rcases Nat.le_total count hidden with hle | hle
  · have htake : (Text.spaces hidden).take count = Text.spaces count := by
      rw [Text.spaces, List.take_replicate, Nat.min_eq_left hle, Text.spaces]
    rw [htake, byteSize_spaces, Nat.sub_eq_zero_of_le hle, List.take_zero, Text.byteSize_nil]
    omega
  · rw [List.take_of_length_le (by omega), byteSize_spaces]
    omega

/-- All sections can be cut out, and they are those of the heading. -/
theorem sections?_eq (grammar : Grammar) (lead text : Text) (rule : Rule) :
    grammar.sections? (lead ++ text) (Text.byteSize lead) rule =
      let parts := grammar.attributes.splitLeading text
      let hidden := Text.byteSize (lead ++ parts.1)
      some ((grammar.headingBy? hidden parts.2 rule).map fun heading =>
        ⟨Text.byteSize lead, hidden, hidden + Text.byteSize heading.before, Text.spaces hidden ++ parts.2,
          heading.name, parts.1 ++ heading.before, heading.before⟩) := by
  obtain ⟨attrs, code, hparts⟩ : ∃ attrs code, grammar.attributes.splitLeading text = (attrs, code) := ⟨_, _, rfl⟩
  have htext : text = attrs ++ code := by
    have hsplit := grammar.attributes.eq_of_splitLeading text
    rwa [hparts] at hsplit
  have hleading : Text.byteSize lead + grammar.attributes.leadingLength text = Text.byteSize (lead ++ attrs) := by
    rw [AttributeStyle.leadingLength, hparts, htext, Text.byteSize_append, Text.byteSize_append, Nat.add_sub_cancel]
  have hline : lead ++ text = lead ++ attrs ++ code := by
    rw [htext, List.append_assoc]
  rw [sections?, Text.from?_append]
  dsimp only [Option.bind_eq_bind, Option.bind_some]
  rw [hleading, hparts, hline, Text.from?_append, headingBy?_eq_map]
  dsimp only [Option.bind_eq_bind, Option.bind_some]
  generalize hhidden : Text.byteSize (lead ++ attrs) = hidden
  cases haccepted : grammar.accepted? (Text.spaces hidden ++ code) rule with
  | none => rfl
  | some parts =>
    obtain ⟨found, name⟩ := parts
    have hsize : Text.byteSize (Text.spaces hidden ++ code) = Text.byteSize (lead ++ attrs ++ code) := by
      rw [Text.byteSize_append, byteSize_spaces, Text.byteSize_append, hhidden]
    dsimp only
    rw [nameOffset?_eq (matchStart?_of_accepted? haccepted) hsize]
    dsimp only [Option.bind_eq_bind, Option.bind_some, Option.map_some]
    rw [max_byteSize_take]
    generalize nameStart (Text.spaces hidden ++ code) name found - hidden = count
    have hhead : Text.slice? (Text.byteSize lead) (hidden + Text.byteSize (code.take count)) (lead ++ attrs ++ code) =
        some (attrs ++ code.take count) := by
      have hslice := Text.slice?_append lead (attrs ++ code.take count) (code.drop count)
      rwa [← Text.byteSize_append, ← List.append_assoc, Text.byteSize_append, hhidden,
        List.append_assoc (lead ++ attrs), List.take_append_drop] at hslice
    have hbefore : Text.slice? hidden (hidden + Text.byteSize (code.take count)) (lead ++ attrs ++ code) =
        some (code.take count) := by
      have hslice := Text.slice?_append (lead ++ attrs) (code.take count) (code.drop count)
      rwa [hhidden, List.append_assoc (lead ++ attrs), List.take_append_drop] at hslice
    rw [hhead, hbefore]
    rfl

/-- The offsets of a declaration line fit together and with the line. -/
structure Sections.Coherent (line : Text) (sections : Sections) : Prop where
  byteSize_view : Text.byteSize sections.view = Text.byteSize line
  codeStart_le : sections.codeStart ≤ sections.attrsEnd
  attrsEnd_le : sections.attrsEnd ≤ sections.nameStart
  nameStart_le : sections.nameStart ≤ Text.byteSize line
  isSome_cutAt? : ∀ offset ∈ [sections.codeStart, sections.attrsEnd, sections.nameStart],
    (Text.cutAt? offset line).isSome = true

/-- Sections of a line that are cut out one behind the other are coherent. -/
theorem coherent_of_parts (lead attrs before after name : Text) :
    Sections.Coherent (lead ++ attrs ++ (before ++ after))
      ⟨Text.byteSize lead, Text.byteSize (lead ++ attrs), Text.byteSize (lead ++ attrs) + Text.byteSize before,
        Text.spaces (Text.byteSize (lead ++ attrs)) ++ (before ++ after), name, attrs ++ before, before⟩ := by
  have hcut : ∀ front back, lead ++ attrs ++ (before ++ after) = front ++ back →
      (Text.cutAt? (Text.byteSize front) (lead ++ attrs ++ (before ++ after))).isSome = true := by
    intro front back hline
    rw [hline, Text.cutAt?_append, Option.isSome_some]
  have hname := hcut (lead ++ attrs ++ before) after (by rw [← List.append_assoc])
  rw [Text.byteSize_append (lead ++ attrs)] at hname
  constructor
  · rw [Text.byteSize_append, byteSize_spaces, Text.byteSize_append (lead ++ attrs)]
  · rw [Text.byteSize_append]
    exact Nat.le_add_right _ _
  · exact Nat.le_add_right _ _
  · exact Text.le_byteSize_of_cutAt? hname
  · simp only [List.forall_mem_cons, List.not_mem_nil, false_implies, implies_true, and_true]
    exact ⟨hcut lead (attrs ++ (before ++ after)) (List.append_assoc ..), hcut (lead ++ attrs) _ rfl, hname⟩

/-- On every line, whatever its documentation, attributes and names hold, the search for code behind a documentation
block cuts the line between characters only. From the start of the line and from where it finds code, every rule has
all its sections cut out of the line, at offsets that are coherent, and they are those of the heading that the rule
gives to the code behind the attributes. -/
theorem sections_coherent (grammar : Grammar) (line : Text) :
    (∃ codeStart?, grammar.docs.codeOffset? line = some codeStart?) ∧
    ∀ codeStart, codeStart = 0 ∨ grammar.docs.codeOffset? line = some (some codeStart) →
      ∃ lead text, line = lead ++ text ∧ Text.byteSize lead = codeStart ∧ ∀ rule : Rule, ∃ found?,
        grammar.sections? line codeStart rule = some found? ∧ (∀ sections ∈ found?, sections.Coherent line) ∧
          let parts := grammar.attributes.splitLeading text
          found?.map (fun sections => (sections.name, sections.head, sections.before)) =
            (grammar.headingBy? (Text.byteSize (lead ++ parts.1)) parts.2 rule).map fun heading =>
              (heading.name, parts.1 ++ heading.before, heading.before) := by
  refine ⟨⟨_, grammar.docs.codeOffset?_eq line⟩, fun codeStart hstart => ?_⟩
  obtain ⟨lead, text, rfl, rfl⟩ : ∃ lead text, line = lead ++ text ∧ Text.byteSize lead = codeStart := by
    rcases hstart with rfl | hstart
    · exact ⟨[], line, rfl, rfl⟩
    · rw [DocStyle.codeOffset?_eq] at hstart
      obtain ⟨parts, hcode, hsize⟩ := Option.map_eq_some_iff.1 (Option.some.inj hstart)
      exact ⟨parts.1, parts.2, DocStyle.eq_of_codeAfterBlockDoc? hcode, hsize⟩
  refine ⟨lead, text, rfl, rfl, fun rule => ⟨_, grammar.sections?_eq lead text rule, ?_, ?_⟩⟩
  · intro sections hsections
    obtain ⟨heading, hheading, rfl⟩ := Option.map_eq_some_iff.1 hsections
    rw [headingBy?_eq_map] at hheading
    obtain ⟨parts, -, rfl⟩ := Option.map_eq_some_iff.1 hheading
    obtain ⟨attrs, code, hsplit⟩ : ∃ attrs code, grammar.attributes.splitLeading text = (attrs, code) := ⟨_, _, rfl⟩
    have htext := grammar.attributes.eq_of_splitLeading text
    rw [hsplit] at htext ⊢
    dsimp only at htext ⊢
    generalize nameStart _ _ _ - _ = count
    have hcoherent := coherent_of_parts lead attrs (code.take count) (code.drop count) parts.2
    rwa [List.take_append_drop, List.append_assoc, ← htext] at hcoherent
  · rw [Option.map_map]
    rfl

/-- A declaration behind documentation and an attribute, all with letters of several bytes. -/
def accentedLine : Text :=
  "/** é */ #[doc = \"ü\"] fn naïve() \x7b\x7d".toList

/-- The rule for functions finds this one. -/
theorem sections_coherent_accentedLine : ∃ rule ∈ Language.rust.grammar.rules, ∃ sections,
    Language.rust.grammar.sections? accentedLine 9 rule = some (some sections) ∧ sections.Coherent accentedLine ∧
      sections.name = "naïve".toList ∧ sections.attrsEnd = 24 ∧ sections.nameStart = 27 ∧
        sections.head = " #[doc = \"ü\"] fn ".toList := by
  have hstart : Language.rust.grammar.docs.codeOffset? accentedLine = some (some 9) := by decide +kernel
  obtain ⟨-, hsections⟩ := sections_coherent Language.rust.grammar accentedLine
  obtain ⟨lead, text, -, -, hrules⟩ := hsections 9 (.inr hstart)
  obtain ⟨found?, hfound, hcoherent, -⟩ := hrules (Language.rust.grammar.rules.get ⟨7, by decide⟩)
  have hread : (Language.rust.grammar.sections? accentedLine 9 (Language.rust.grammar.rules.get ⟨7, by decide⟩)).map
      (Option.map fun sections => (sections.name, sections.attrsEnd, sections.nameStart, sections.head)) =
        some (some ("naïve".toList, 24, 27, " #[doc = \"ü\"] fn ".toList)) := by decide +kernel
  rw [hfound, Option.map_some, Option.some.injEq] at hread
  obtain ⟨sections, rfl, hvalues⟩ := Option.map_eq_some_iff.1 hread
  simp only [Prod.mk.injEq] at hvalues
  obtain ⟨hname, hattrs, hstarts, hhead⟩ := hvalues
  exact ⟨_, List.get_mem _ _, sections, hfound, hcoherent sections rfl, hname, hattrs, hstarts, hhead⟩

end Grammar

end Outline
