import Outline.Grammar.All
import Outline.Proofs.Attribute.Nesting
import Outline.Proofs.Extent.Prefixes
import Outline.Proofs.Grammar.Headings
import Outline.Proofs.Lexing.Prefixes
import Outline.Proofs.Scan.Silence

namespace Outline

section Front

/-- Characters that could begin a comment, a literal or a body, or end a statement or a line. -/
def attributeStops : Text :=
  ['"', '\'', '/', '#', '\\', '{', '}', ';', '\n']

/-- The inside of an attribute whose brackets nest and which holds none of the characters that could end it early. -/
structure AttributeBody (body : Text) : Prop where
  nested : Nested body
  plain : ∀ c ∈ body, c ∉ attributeStops

namespace AttributeBody

variable {body : Text}

theorem not_mem_stops (hbody : AttributeBody body) : ∀ c ∈ '[' :: (body ++ [']']), c ∉ attributeStops :=
  List.forall_mem_cons.2 ⟨by decide, List.forall_mem_append.2 ⟨hbody.plain, List.forall_mem_singleton.2 (by decide)⟩⟩

theorem feed_not_mem (hbody : AttributeBody body) : '\n' ∉ hashAttribute body := by
  intro hmem
  rcases List.mem_cons.1 hmem with heq | hmem
  · exact absurd heq (by decide)
  · exact hbody.not_mem_stops _ hmem (by decide)

theorem plain_brackets (hbody : AttributeBody body) : Text.Plain ('[' :: (body ++ [']'])) := by
  intro c hmem
  have hstops := hbody.not_mem_stops c hmem
  simp only [attributeStops, List.mem_cons, List.not_mem_nil, or_false, not_or] at hstops
  simp [isLiteralMark, hstops]

theorem nested_front (hbody : AttributeBody body) : Nested (hashAttribute body ++ [' ']) :=
  (nested_hashAttribute hbody.nested).append (.other (by decide) .nil)

/-- Neither the attribute nor the space behind it holds a brace or a semicolon. -/
theorem bodyless_front (hbody : AttributeBody body) :
    ∀ c ∈ hashAttribute body ++ [' '], c ≠ '{' ∧ c ≠ '}' ∧ c ≠ ';' := by
  refine List.forall_mem_append.2 ⟨List.forall_mem_cons.2 ⟨by decide, fun c hmem => ?_⟩,
    List.forall_mem_singleton.2 (by decide)⟩
  have hstops := hbody.not_mem_stops c hmem
  simp only [attributeStops, List.mem_cons, List.not_mem_nil, or_false, not_or] at hstops
  simp [hstops]

end AttributeBody

/-- An attribute is a line before those of a text or joins the first of them. -/
theorem exists_lines_attribute {body t : Text} (hbody : AttributeBody body)
    (hname : Text.startsWhere isNameChar t = true) :
    ∃ line rest, Text.lines t = line :: rest ∧
      Text.lines (hashAttribute body ++ '\n' :: t) = hashAttribute body :: line :: rest ∧
      Text.lines (hashAttribute body ++ ' ' :: t) = (hashAttribute body ++ ' ' :: line) :: rest ∧
      Text.startsWhere isNameChar line = true := by
  cases t with
  | nil => cases hname
  | cons c t =>
    have hc : isNameChar c = true := hname
    have hend : c ≠ '\n' ∧ c ≠ '\r' := by
      constructor <;> rintro rfl <;> exact absurd hc (by decide)
    obtain ⟨more, rest, hlines, hfront⟩ := Text.exists_lines_front hend t
    have hfeed := hbody.feed_not_mem
    have hspace : '\n' ∉ hashAttribute body ++ [' '] := by simp [hfeed]
    have hshared := hfront (hashAttribute body ++ [' ']) hspace
    refine ⟨c :: more, rest, hlines, ?_, by simpa using hshared, hc⟩
    rw [Text.lines, Text.linesFrom_append_feed hfeed, hlines]
    simp [hashAttribute, Text.dropReturn]

/-- What stands before a line and a space does not matter to whether the line carries on a head, if the line is more
than a word that does. -/
theorem carriesHead_behind {front line : Text} (hfront : Text.EndsSolid front) (hline : Text.StartsSolid line)
    (hwhere : Text.trim line ≠ "where".toList) : carriesHead (front ++ ' ' :: line) = carriesHead line := by
  have htrim : Text.trim (front ++ ' ' :: line) = Text.trim front ++ ' ' :: Text.trim line :=
    Text.trim_between hfront hline [' ']
  have hlonger : (Text.trim front ++ ' ' :: Text.trim line == "where".toList) = false := by
    rw [beq_eq_false_iff_ne]
    intro heq
    have hmem : ' ' ∈ "where".toList := heq ▸ List.mem_append_right _ List.mem_cons_self
    exact absurd hmem (by decide)
  simp only [carriesHead, htrim, hlonger, beq_eq_false_iff_ne.2 hwhere]
  rw [Text.endsWith_append_cons (by decide), Text.endsWith_append_cons (by decide),
    Text.endsWith_append_cons (by decide)]

theorem trim_ne_where {line : Text} (hmore : ∃ c ∈ line, c ∉ "wher".toList ++ blankChars) :
    Text.trim line ≠ "where".toList := by
  obtain ⟨c, hmem, hc⟩ := hmore
  obtain ⟨hletter, hspace⟩ := not_or.1 (mt List.mem_append.2 hc)
  have hblank : isBlank c = false := Bool.eq_false_iff.2 (mt mem_blankChars hspace)
  intro heq
  have hword : c ∈ "where".toList := heq ▸ Text.mem_trim hmem hblank
  have hletters : ("where".toList.all fun c => c ∈ "wher".toList) = true := by decide
  exact hletter (of_decide_eq_true (List.all_eq_true.1 hletters c hword))

end Front

namespace Grammar

variable {grammar : Grammar} {limits : Limits} {body code : Text}

/-- What allows an attribute in brackets after a number sign before a declaration on its line: comments, literals and
documentation begin with other marks, and every rule passes over white space before it takes more than a part of the
word that carries on a head. -/
structure TakesHashAttributes (grammar : Grammar) : Prop where
  attributes_eq : grammar.attributes = .hash
  style_eq : grammar.style = .braces '{' '}'
  terminator_eq : grammar.terminator = .semicolon
  bodyString_eq : grammar.docs.bodyString = false
  precedingString_eq : grammar.docs.precedingString = false
  docMarks : ∀ mark ∈ grammar.docs.lineMarks ++ (grammar.docs.block.map Prod.fst).toList, mark.head? = some '/'
  opensMarked : grammar.lexicon.opensMarked = true
  codeMove_eq : ∀ rest, grammar.lexicon.codeMove [] ('#' :: '[' :: rest) = .code
  namesSolid : grammar.NamesSolid
  absorbsSpaces : grammar.AbsorbsSpaces
  beyondWhere : ∀ rule ∈ grammar.rules, rule.pattern.takesOutside ("wher".toList ++ blankChars) = true

theorem takesHashAttributes {language : Language} (hlanguage : language = .rust ∨ language = .php) :
    language.grammar.TakesHashAttributes := by
  have hrules : language.grammar.rules.all (fun rule => rule.pattern.absorbsSpaces && rule.pattern.leavesSpaces &&
      rule.pattern.takesOutside ("wher".toList ++ blankChars)) = true := by
    rcases hlanguage with rfl | rfl <;> decide +kernel
  have hrule (rule : Rule) (hmem : rule ∈ language.grammar.rules) : (rule.pattern.absorbsSpaces = true ∧
      rule.pattern.leavesSpaces = true) ∧ rule.pattern.takesOutside ("wher".toList ++ blankChars) = true := by
    simpa only [Bool.and_eq_true] using List.all_eq_true.1 hrules rule hmem
  rcases hlanguage with rfl | rfl <;>
    exact {
      attributes_eq := rfl
      style_eq := rfl
      terminator_eq := rfl
      bodyString_eq := rfl
      precedingString_eq := rfl
      docMarks := by decide
      opensMarked := by decide
      codeMove_eq := fun rest => rfl
      namesSolid := namesSolid _
      absorbsSpaces := fun rule hmem => (hrule rule hmem).1
      beyondWhere := fun rule hmem => (hrule rule hmem).2 }

namespace TakesHashAttributes

section Prelude

variable {line : Text} {pending : Pending} {following : List Text}

/-- A line that begins with no mark of documentation is an attribute or code. -/
theorem preludeOf_eq_preludeOfCode (htakes : grammar.TakesHashAttributes)
    (hline : ∃ c ∈ (Text.trim line).head?, c ≠ '/') :
    grammar.preludeOf pending line following = grammar.preludeOfCode pending [] line line following := by
  obtain ⟨c, hhead, hc⟩ := hline
  obtain ⟨more, hcons⟩ := List.head?_eq_some_iff.1 hhead
  have hnone : ∀ mark ∈ grammar.docs.lineMarks ++ (grammar.docs.block.map Prod.fst).toList,
      Text.strip? mark (Text.trim line) = none := by
    intro mark hmem
    obtain ⟨rest, rfl⟩ := List.head?_eq_some_iff.1 (htakes.docMarks mark hmem)
    rw [hcons, Text.strip?, if_neg (Ne.symm hc)]
  have hblock : grammar.docs.startsBlockDoc (Text.trim line) = false := by
    cases hmarks : grammar.docs.block with
    | none => rw [DocStyle.startsBlockDoc, hmarks]
    | some marks =>
      have hmark := hnone marks.1 (by simp [hmarks])
      simp [DocStyle.startsBlockDoc, hmarks, Text.startsWith, hmark]
  have hdoc : grammar.docs.docLine? (Text.trim line) = none := by
    refine List.findSome?_eq_none_iff.2 fun mark hmem => ?_
    rw [DocStyle.markedLine?, hnone mark (List.mem_append_left _ hmem)]
  have hvisible : ¬ (Text.trim line).isEmpty = true := by simp [hcons]
  simp only [preludeOf, if_neg hvisible, hblock, Bool.false_eq_true, if_false, hdoc]

/-- An attribute on a line of its own waits for the declaration. -/
theorem preludeOf_attribute (htakes : grammar.TakesHashAttributes) (hbody : Nested body) :
    grammar.preludeOf pending (hashAttribute body) following =
      .absorbed (pending.pushModifier (normalizeText (hashAttribute body))) 0 := by
  have htrim := (solid_hashAttribute body).trim
  have hline : ∃ c ∈ (Text.trim (hashAttribute body)).head?, c ≠ '/' := ⟨'#', by rw [htrim]; rfl, by decide⟩
  rw [htakes.preludeOf_eq_preludeOfCode hline, preludeOfCode, htrim, htakes.attributes_eq,
    AttributeStyle.startsAttribute_hashAttribute hbody, AttributeStyle.collect_hashAttribute hbody]
  rfl

theorem preludeOf_code (htakes : grammar.TakesHashAttributes) (hline : ∃ c ∈ (Text.trim line).head?, c ≠ '/')
    (hcode : AttributeStyle.hash.startsAttribute (Text.trim line) = false) :
    grammar.preludeOf pending line following = .code pending [] line := by
  rw [htakes.preludeOf_eq_preludeOfCode hline, preludeOfCode, htakes.attributes_eq, hcode, htakes.precedingString_eq]
  rfl

end Prelude

section Role

variable {carry : Carry} {rest : List Text}

theorem roleOf_attribute (htakes : grammar.TakesHashAttributes) (hbody : Nested body) :
    grammar.roleOf .start (hashAttribute body) rest =
      .passed 0 ⟨.code, 0, ⟨[], [normalizeText (hashAttribute body)]⟩⟩ := by
  have hinside : ¬ Carry.start.isInside = true := by decide
  rw [roleOf, if_neg hinside, htakes.preludeOf_attribute hbody]
  rfl

/-- The role of a line of code is up to the code behind its attributes. -/
theorem roleOf_of_preludeOf {line attrs : Text} (hinside : carry.isInside = false)
    (hprelude : grammar.preludeOf carry.pending line rest = .code carry.pending [] line)
    (hsplit : grammar.attributes.splitLeading line = (attrs, code)) :
    (grammar.heading? (Text.byteSize attrs) code = none →
        ∃ carried, grammar.roleOf carry line rest = .passed 0 carried) ∧
      ∀ heading, grammar.heading? (Text.byteSize attrs) code = some heading →
        ∃ skipped, grammar.roleOf carry line rest = .heads heading attrs carry.pending skipped := by
  simp only [roleOf, hinside, Bool.false_eq_true, if_false, hprelude, hsplit, List.nil_append]
  refine ⟨fun hnone => ?_, fun heading hsome => ?_⟩
  · simp only [hnone]
    exact ⟨_, rfl⟩
  · simp only [hsome]
    exact ⟨_, rfl⟩

theorem roleOf_code (htakes : grammar.TakesHashAttributes) (hinside : carry.isInside = false)
    (hname : Text.startsWhere isNameChar code = true) :
    (grammar.heading? 0 code = none → ∃ carried, grammar.roleOf carry code rest = .passed 0 carried) ∧
      ∀ heading, grammar.heading? 0 code = some heading →
        ∃ skipped, grammar.roleOf carry code rest = .heads heading [] carry.pending skipped := by
  have htrim := Text.startsWhere_trim hname
  have hline : ∃ c ∈ (Text.trim code).head?, c ≠ '/' := by
    obtain ⟨c, more, hcons, -⟩ := Text.startsSolid_of_name htrim
    rw [hcons] at htrim ⊢
    refine ⟨c, rfl, ?_⟩
    rintro rfl
    have hmark : isNameChar '/' = true := htrim
    exact absurd hmark (by decide)
  have hsplit := AttributeStyle.splitLeading_of_name hname
  rw [← htakes.attributes_eq] at hsplit
  exact roleOf_of_preludeOf hinside (htakes.preludeOf_code hline (AttributeStyle.startsAttribute_of_name htrim)) hsplit

/-- Behind an attribute the code declares what it declares without it. -/
theorem roleOf_behind (htakes : grammar.TakesHashAttributes) (hinside : carry.isInside = false) (hbody : Nested body)
    (hname : Text.startsWhere isNameChar code = true) {heading : Heading}
    (hheading : grammar.heading? 0 code = some heading) :
    ∃ skipped, grammar.roleOf carry (hashAttribute body ++ ' ' :: code) rest =
      .heads heading (hashAttribute body ++ [' ']) carry.pending skipped := by
  have hsolid := Text.startsSolid_of_name hname
  have htrim : Text.trim (hashAttribute body ++ ' ' :: code) = hashAttribute body ++ ' ' :: Text.trim code := by
    have hbetween := Text.trim_between (solid_hashAttribute body).ends hsolid [' ']
    rwa [(solid_hashAttribute body).trim] at hbetween
  have hline : ∃ c ∈ (Text.trim (hashAttribute body ++ ' ' :: code)).head?, c ≠ '/' :=
    ⟨'#', by rw [htrim]; rfl, by decide⟩
  have hattribute := AttributeStyle.startsAttribute_behind hbody (Text.startsWhere_trim hname)
  rw [← htrim] at hattribute
  have hsplit := AttributeStyle.splitLeading_behind hbody hname
  rw [← htakes.attributes_eq] at hsplit
  refine (roleOf_of_preludeOf hinside (htakes.preludeOf_code hline hattribute) hsplit).2 heading ?_
  rw [heading?_hidden htakes.namesSolid htakes.absorbsSpaces hsolid, hheading]

end Role

section Heads

variable {line : Text} {rest : List Text} {heading : Heading}

/-- A line that declares something in the first of its texts is code that a rule accepts. -/
theorem exists_heading_of_declared (htakes : grammar.TakesHashAttributes) {t : Text}
    (hlines : Text.lines t = line :: rest) (hname : Text.startsWhere isNameChar line = true)
    (hdeclared : ∃ d ∈ Declaration.walkAll (grammar.scan limits t).1, d.startLine = 1) :
    ∃ heading, grammar.heading? 0 line = some heading := by
  refine Option.ne_none_iff_exists'.1 fun hnone => ?_
  obtain ⟨carried, hrole⟩ := (@roleOf_code _ _ .start rest htakes rfl hname).1 hnone
  obtain ⟨d, hmem, hstart⟩ := hdeclared
  rw [scan, hlines, scanLines_passed rfl hrole] at hmem
  have hbounds := (scanLines_ordered grammar limits _ _ _ _ _).bounds d hmem
  omega

/-- The reader delivers an attribute and the space behind it before the code of the line. -/
theorem standsBehind (htakes : grammar.TakesHashAttributes) (hbody : AttributeBody body)
    (hname : Text.startsWhere isNameChar line = true) (hheading : grammar.heading? 0 line = some heading) :
    (grammar.blockRules limits).StandsBehind (hashAttribute body ++ [' ']) line
      (hashAttribute body ++ ' ' :: line) := by
  obtain ⟨hsign, hafter⟩ := Lexicon.readFrom_of_code (htakes.codeMove_eq (body ++ [']'] ++ ' ' :: line)) 0
  obtain ⟨hcode, hstate⟩ :=
    Lexicon.readFrom_plain htakes.opensMarked hbody.plain_brackets (0 + '#'.utf8Size) ['#'] line
  have hwhere := trim_ne_where (exists_outside_of_heading? htakes.beyondWhere hheading)
  refine ⟨?_, hafter.trans hstate, carriesHead_behind (solid_hashAttribute body).ends (Text.startsSolid_of_name hname)
    hwhere⟩
  rw [List.append_assoc]
  exact hsign.trans (congrArg ('#' :: ·) hcode)

/-- An extent that is found does not depend on an attribute before the declaration. -/
theorem extent_behind (htakes : grammar.TakesHashAttributes) (hbody : AttributeBody body)
    (hname : Text.startsWhere isNameChar line = true) (hheading : grammar.heading? 0 line = some heading) (index : Nat)
    (hfound : (grammar.extent limits heading.rule.body index (line :: rest)).isDegraded = false)
    (hfound' : (grammar.extent limits heading.rule.body index
      ((hashAttribute body ++ ' ' :: line) :: rest)).isDegraded = false) :
    grammar.extent limits heading.rule.body index ((hashAttribute body ++ ' ' :: line) :: rest) =
      grammar.extent limits heading.rule.body index (line :: rest) := by
  have hbodyless := hbody.bodyless_front
  refine extent_eq_behind htakes.style_eq htakes.terminator_eq (htakes.standsBehind hbody hname hheading) ?_ ?_ _ _
    hfound hfound'
  · exact hbody.nested_front.foldl_headScan (fun c hmem => ⟨(hbodyless c hmem).1, (hbodyless c hmem).2.2⟩) .semicolon
  · exact hbody.nested_front.foldl_statementScan hbodyless

/-- An attribute before the declaration is the modifier that waits where the attribute has a line of its own. -/
theorem declaration?_behind (htakes : grammar.TakesHashAttributes) (hbody : Nested body)
    (hname : Text.startsWhere isNameChar line = true) (hheading : grammar.heading? 0 line = some heading) (index : Nat)
    (extent : Extent) (window window' : List Text) :
    grammar.declaration? index (hashAttribute body ++ [' ']) heading extent .empty window' =
      grammar.declaration? index [] heading extent ⟨[], [normalizeText (hashAttribute body)]⟩ window := by
  have hbegins := (of_heading?_eq_some hheading).2.2.1
  have hbehind := AttributeStyle.inline_behind hbody hname hbegins
  have hinline : AttributeStyle.hash.inline ([] ++ heading.before) = [] := AttributeStyle.inline_of_name hname hbegins
  simp only [declaration?, htakes.attributes_eq, htakes.bodyString_eq, hbehind, hinline, Bool.false_eq_true, if_false,
    List.append_nil]
  rfl

end Heads

end TakesHashAttributes

/-- Where two lines declare the same with the same extent, and the same lines follow, the scans are the same. -/
theorem scanLines_eq_of_heads {depth index : Nat} {carry carry' skipped skipped' : Carry} {progress : Progress}
    {line line' attrs attrs' : Text} {rest : List Text} {heading : Heading} {pending pending' : Pending}
    {extent : Extent} (hrunning : progress.exhausted = false) (hname : Text.Solid heading.name)
    (hrole : grammar.roleOf carry line rest = .heads heading attrs pending skipped)
    (hrole' : grammar.roleOf carry' line' rest = .heads heading attrs' pending' skipped')
    (hextent : grammar.extent limits heading.rule.body index (line :: rest) = extent)
    (hextent' : grammar.extent limits heading.rule.body index (line' :: rest) = extent)
    (hdeclared : grammar.declaration? index attrs' heading extent pending' (line' :: rest) =
      grammar.declaration? index attrs heading extent pending (line :: rest)) :
    grammar.scanLines limits depth index carry' progress (line' :: rest) =
      grammar.scanLines limits depth index carry progress (line :: rest) := by
  have hvisible : ¬ (Text.trim heading.name).isEmpty = true := by
    rw [hname.trim, List.isEmpty_iff]
    exact hname.ends.ne_nil
  obtain ⟨declared, hfound⟩ :
      ∃ declared, grammar.declaration? index attrs heading extent pending (line :: rest) = some declared :=
    exists_declaration hvisible
  rw [scanLines_heads hrunning hrole, scanLines_heads hrunning hrole']
  simp only [hextent, hextent', hdeclared, hfound]

namespace TakesHashAttributes

/-- An attribute on a line of its own gives, in silence, the declarations that it gives on their line. -/
theorem scan_attribute (htakes : grammar.TakesHashAttributes) (hbody : AttributeBody body) {t : Text}
    (hname : Text.startsWhere isNameChar t = true)
    (hdeclared : ∃ d ∈ Declaration.walkAll (grammar.scan limits t).1, d.startLine = 1)
    (hsilent : (grammar.scan limits (hashAttribute body ++ '\n' :: t)).2 = [])
    (hsilent' : (grammar.scan limits (hashAttribute body ++ ' ' :: t)).2 = []) :
    (grammar.scan limits (hashAttribute body ++ '\n' :: t)).1 =
      Declaration.shiftAll 1 (grammar.scan limits (hashAttribute body ++ ' ' :: t)).1 := by
  obtain ⟨line, rest, hlines, hown, hshared, hname⟩ := exists_lines_attribute hbody hname
  obtain ⟨heading, hheading⟩ := htakes.exists_heading_of_declared hlines hname hdeclared
  obtain ⟨skipped, hrole⟩ := (@roleOf_code _ _ ⟨.code, 0, ⟨[], [normalizeText (hashAttribute body)]⟩⟩ rest htakes rfl
    hname).2 heading hheading
  obtain ⟨skipped', hrole'⟩ := @roleOf_behind _ _ _ .start rest htakes rfl hbody.nested hname heading hheading
  rw [scan, hown, scanLines_passed rfl (htakes.roleOf_attribute hbody.nested)] at hsilent ⊢
  rw [scan, hshared] at hsilent' ⊢
  have hleads : Progress.start.Leads Progress.start := ⟨Nat.le_refl _, rfl, rfl, rfl⟩
  obtain ⟨hmoved, hquiet⟩ := scanLines_settled (.refl limits) 1 (line :: rest) (Nat.le_refl 0) hleads hsilent
  have hfound := (scanLines_silent_cases rfl hrole rfl hquiet).2.1
  have hfound' := (scanLines_silent_cases rfl hrole' rfl hsilent').2.1
  have hextent := htakes.extent_behind hbody hname hheading 0 hfound hfound'
  rw [scanLines_eq_of_heads rfl (htakes.namesSolid.of_heading? hheading) hrole hrole' rfl hextent
    (htakes.declaration?_behind hbody.nested hname hheading 0 _ _ _)]
  exact hmoved

end TakesHashAttributes

/-- It does not matter to a declaration on the first line whether an attribute stands on a line of its own or before
it: all that is found, on every level, is the same but for its place. Both scans are silent, and nothing in the
attribute could begin a comment, a literal or a body. -/
theorem scan_attribute_placement {language : Language} (hlanguage : language = .rust ∨ language = .php)
    (limits : Limits) {body t : Text} (hbody : AttributeBody body) (hname : Text.startsWhere isNameChar t = true)
    (hdeclared : ∃ d ∈ Declaration.walkAll (language.grammar.scan limits t).1, d.startLine = 1)
    (hsilent : (language.grammar.scan limits (hashAttribute body ++ '\n' :: t)).2 = [])
    (hsilent' : (language.grammar.scan limits (hashAttribute body ++ ' ' :: t)).2 = []) :
    (language.grammar.scan limits (hashAttribute body ++ '\n' :: t)).1 =
      Declaration.shiftAll 1 (language.grammar.scan limits (hashAttribute body ++ ' ' :: t)).1 :=
  (takesHashAttributes hlanguage).scan_attribute hbody hname hdeclared hsilent hsilent'

/-- A module with a function, behind an attribute with brackets of both kinds. -/
theorem scan_attribute_placement_module :
    AttributeBody "cfg(any(a), b[0])".toList ∧
      (Language.rust.grammar.scan {} (hashAttribute "cfg(any(a), b[0])".toList ++
        '\n' :: "mod m \x7b\n    fn f() \x7b\x7d\n\x7d\n".toList)).1 =
      Declaration.shiftAll 1 (Language.rust.grammar.scan {} (hashAttribute "cfg(any(a), b[0])".toList ++
        ' ' :: "mod m \x7b\n    fn f() \x7b\x7d\n\x7d\n".toList)).1 := by
  have hindex : Nested (", b".toList ++ '[' :: ("0".toList ++ [']'])) :=
    .append (.of_all (by decide)) (.square (.of_all (by decide)) .nil)
  have hany : Nested ("any".toList ++ '(' :: ("a".toList ++ ')' :: (", b".toList ++ '[' :: ("0".toList ++ [']'])))) :=
    .append (.of_all (by decide)) (.round (.of_all (by decide)) hindex)
  have hnested : Nested ("cfg".toList ++ '(' :: ("any(a), b[0]".toList ++ [')'])) :=
    .append (.of_all (by decide)) (.round hany .nil)
  have hplain : ("cfg(any(a), b[0])".toList.all fun c => c ∉ attributeStops) = true := by decide
  have hbody : AttributeBody "cfg(any(a), b[0])".toList :=
    ⟨hnested, fun c hmem => of_decide_eq_true (List.all_eq_true.1 hplain c hmem)⟩
  exact ⟨hbody, scan_attribute_placement (.inl rfl) {} hbody (by decide) (by decide +kernel) (by decide +kernel)
    (by decide +kernel)⟩

end Grammar

end Outline
