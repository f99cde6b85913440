import Mathlib.Data.List.Chain
import Outline.Proofs.Attribute.Closing
import Outline.Proofs.Grammar.Offsets

namespace Outline

/-- A complete attribute after a hash: its last bracket is the first one at which as many brackets are closed as are
opened. -/
structure CompleteAttribute (mark : Text) : Prop where
  opens : ['#', '['] <+: mark
  ends : [']'] <:+ mark
  closed : mark.count '[' = mark.count ']'
  before : ∀ front, front <+: mark → '[' ∈ front → front ≠ mark → front.count '[' ≠ front.count ']'

/-- An attribute after a hash that is opened in a text and never closed. -/
structure OpenAttribute (t : Text) : Prop where
  opens : ['#', '['] <+: t
  never : ∀ front, front <+: t → '[' ∈ front → front.count '[' ≠ front.count ']'

section Attribute

variable {t gap mark rest opened : Text}

theorem hashBracket_isPrefix_iff : ['#', '['] <+: t ↔ ∃ opened, t = '#' :: '[' :: opened :=
  exists_congr fun _ => eq_comm

/-- The count of brackets behind the first one of an attribute. -/
theorem count_opened (part : Text) :
    ('#' :: '[' :: part).count '[' = ('#' :: '[' :: part).count ']' ↔ 1 + Text.tally (pairValue '[' ']') part = 0 := by
  rw [tally_pairValue_eq (by decide), List.count_cons_of_ne (by decide), List.count_cons_self,
    List.count_cons_of_ne (by decide), List.count_cons_of_ne (by decide)]
  omega

/-- The beginnings of an attribute that hold its first bracket. -/
theorem isPrefix_opened_iff {front : Text} :
    front <+: '#' :: '[' :: opened ∧ '[' ∈ front ↔ ∃ part, front = '#' :: '[' :: part ∧ part <+: opened := by
  constructor
  · rintro ⟨hfront, hmem⟩
    rcases List.prefix_cons_iff.1 hfront with rfl | ⟨later, rfl, hlater⟩
    · cases hmem
    rcases List.prefix_cons_iff.1 hlater with rfl | ⟨part, rfl, hpart⟩
    · exact absurd hmem (by decide)
    · exact ⟨part, rfl, hpart⟩
  · rintro ⟨part, rfl, hpart⟩
    exact ⟨List.cons_prefix_cons.2 ⟨rfl, List.cons_prefix_cons.2 ⟨rfl, hpart⟩⟩,
      List.mem_cons_of_mem _ List.mem_cons_self⟩

theorem CompleteAttribute.startsSolid (hmark : CompleteAttribute mark) : Text.StartsSolid mark := by
  obtain ⟨opened, rfl⟩ := hashBracket_isPrefix_iff.1 hmark.opens
  exact ⟨'#', '[' :: opened, rfl, rfl⟩

theorem completeAttribute_iff :
    CompleteAttribute ('#' :: '[' :: opened) ↔ ClosesAtEnd '[' ']' 1 opened := by
  constructor
  · intro hcomplete
    refine ⟨(count_opened opened).1 hcomplete.closed, fun part hpart hne => ?_⟩
    obtain ⟨hfront, hmem⟩ := isPrefix_opened_iff.2 ⟨part, rfl, hpart⟩
    have hbefore := hcomplete.before _ hfront hmem (fun heq => hne (by simpa using heq))
    rwa [ne_eq, count_opened] at hbefore
  · intro hend
    refine ⟨⟨opened, rfl⟩, ?_, (count_opened opened).2 hend.closed, fun front hfront hmem hne => ?_⟩
    · exact (hend.ends (by decide)).trans ((List.suffix_cons _ _).trans (List.suffix_cons _ _))
    · obtain ⟨part, rfl, hpart⟩ := isPrefix_opened_iff.1 ⟨hfront, hmem⟩
      rw [ne_eq, count_opened]
      exact hend.before part hpart fun heq => hne (by rw [heq])

theorem openAttribute_iff : OpenAttribute ('#' :: '[' :: opened) ↔ StaysOpen '[' ']' 1 opened := by
  constructor
  · intro hopen part hpart
    obtain ⟨hfront, hmem⟩ := isPrefix_opened_iff.2 ⟨part, rfl, hpart⟩
    have hnever := hopen.never _ hfront hmem
    rwa [ne_eq, count_opened] at hnever
  · intro hopen
    refine ⟨⟨opened, rfl⟩, fun front hfront hmem => ?_⟩
    obtain ⟨part, rfl, hpart⟩ := isPrefix_opened_iff.1 ⟨hfront, hmem⟩
    rw [ne_eq, count_opened]
    exact hopen part hpart

/-- The search from the first bracket of an attribute takes the brackets of a complete one. -/
theorem upToClose?_bracket_eq_some_iff {inner : Text} :
    upToClose? '[' ']' 0 ('[' :: opened) = some (inner, rest) ↔
      '[' :: opened = inner ++ rest ∧ CompleteAttribute ('#' :: inner) := by
  rw [upToClose?_opener_eq_some_iff]
  constructor
  · rintro ⟨later, rfl, rfl, hend⟩
    exact ⟨rfl, completeAttribute_iff.2 hend⟩
  · rintro ⟨heq, hcomplete⟩
    obtain ⟨later, hlater⟩ := hashBracket_isPrefix_iff.1 hcomplete.opens
    obtain ⟨-, rfl⟩ := List.cons.inj hlater
    obtain ⟨-, rfl⟩ := List.cons.inj heq
    exact ⟨later, rfl, rfl, completeAttribute_iff.1 hcomplete⟩

theorem upToClose?_bracket_eq_none_iff :
    upToClose? '[' ']' 0 ('[' :: opened) = none ↔ OpenAttribute ('#' :: '[' :: opened) := by
  rw [upToClose?_opener_eq_none_iff, openAttribute_iff]

/-- What is found at the front of a text is a complete attribute with white space before it. -/
theorem hashAttribute?_exact :
    hashAttribute? t = some (gap, mark, rest) ↔ t = gap ++ mark ++ rest ∧ Text.Blank gap ∧ CompleteAttribute mark := by
  rw [hashAttribute?_eq_some_iff]
  constructor
  · rintro ⟨hgap, opened, inner, rfl, rfl, hclose⟩
    obtain ⟨heq, hcomplete⟩ := upToClose?_bracket_eq_some_iff.1 hclose
    exact ⟨by rw [heq, List.append_assoc, List.cons_append], hgap, hcomplete⟩
  · rintro ⟨rfl, hgap, hcomplete⟩
    obtain ⟨later, rfl⟩ := hashBracket_isPrefix_iff.1 hcomplete.opens
    refine ⟨hgap, later ++ rest, '[' :: later, by simp, rfl, ?_⟩
    exact upToClose?_bracket_eq_some_iff.2 ⟨rfl, hcomplete⟩

/-- Nothing is found exactly where the text begins with no attribute or with one that is never closed. -/
theorem hashAttribute?_eq_none_iff :
    hashAttribute? t = none ↔ (['#', '['] <+: Text.trimStart t → OpenAttribute (Text.trimStart t)) := by
  rw [Option.eq_none_iff_forall_ne_some]
  constructor
  · rintro hnone ⟨opened, hopened⟩
    rw [← hopened]
    refine upToClose?_bracket_eq_none_iff.1 (Option.eq_none_iff_forall_ne_some.2 fun ⟨inner, rest⟩ hclose => ?_)
    have ht := Text.leadingBlank_append_trimStart t
    rw [← hopened] at ht
    exact hnone _ (hashAttribute?_eq_some_iff.2 ⟨Text.blank_leadingBlank t, opened, inner, ht.symm, rfl, hclose⟩)
  · rintro hopen ⟨gap, mark, rest⟩ hfound
    obtain ⟨hgap, opened, inner, rfl, rfl, hclose⟩ := hashAttribute?_eq_some_iff.1 hfound
    have htrim : Text.trimStart (gap ++ '#' :: '[' :: opened) = '#' :: '[' :: opened := by
      rw [Text.trimStart_blank_append hgap]
      rfl
    rw [htrim, ← upToClose?_bracket_eq_none_iff, hclose] at hopen
    cases hopen ⟨opened, rfl⟩

end Attribute

section Ranges

/-- The byte ranges of attributes that are laid out one behind the other from an offset on, each with what stands
before it. -/
def rangesFrom : (start : Nat) → List (Text × Text) → List (Nat × Nat)
  | _, [] => []
  | start, (gap, mark) :: rest =>
    let first := start + Text.byteSize gap
    let last := first + Text.byteSize mark
    (first, last) :: rangesFrom last rest

/-- The byte ranges of the complete attributes after a hash that open a text. -/
def hashRanges (t : Text) : List (Nat × Nat) :=
  rangesFrom 0 (leadingHashAttributes t).1

/-- Where the last of some ranges ends, or else `start`. -/
def rangesEnd : (start : Nat) → List (Nat × Nat) → Nat
  | start, [] => start
  | _, range :: ranges => rangesEnd range.2 ranges

/-- Between two offsets of the text there is nothing but white space. -/
def BlankBetween (t : Text) (first last : Nat) : Prop :=
  ∃ gap, Text.slice? first last t = some gap ∧ Text.Blank gap

/-- Ranges of a text that hold exactly the complete attributes after a hash that open it from an offset on. -/
structure ExactRanges (t : Text) (start : Nat) (ranges : List (Nat × Nat)) : Prop where
  ordered : ranges.Pairwise fun range later => range.2 ≤ later.1
  blank_before : ∀ range ∈ ranges.head?, BlankBetween t start range.1
  blank_between : ranges.IsChain fun range next => BlankBetween t range.2 next.1
  complete : ∀ range ∈ ranges, ∃ mark, Text.slice? range.1 range.2 t = some mark ∧ CompleteAttribute mark
  maximal : ∃ rest, Text.from? (rangesEnd start ranges) t = some rest ∧
    (['#', '['] <+: Text.trimStart rest → OpenAttribute (Text.trimStart rest))

variable {t front rest : Text} {start : Nat} {range : Nat × Nat} {ranges : List (Nat × Nat)}

/-- No range starts before the offset. -/
theorem ExactRanges.start_le (hexact : ExactRanges t start ranges) : ∀ range ∈ ranges, start ≤ range.1 := by
  cases ranges with
  | nil => exact List.forall_mem_nil _
  | cons range ranges =>
    obtain ⟨gap, hgap, -⟩ := hexact.blank_before range rfl
    obtain ⟨mark, hmark, -⟩ := hexact.complete range List.mem_cons_self
    have hfirst := Text.le_of_slice? hgap
    have hlast := Text.le_of_slice? hmark
    refine List.forall_mem_cons.2 ⟨hfirst, fun later hmem => ?_⟩
    have hbehind := List.rel_of_pairwise_cons hexact.ordered hmem
    exact (hfirst.trans hlast).trans hbehind

/-- There are no ranges exactly where no attribute is found. -/
theorem exactRanges_nil_iff :
    ExactRanges (front ++ rest) (Text.byteSize front) [] ↔ hashAttribute? rest = none := by
  rw [hashAttribute?_eq_none_iff]
  constructor
  · intro hexact
    obtain ⟨left, hleft, hmaximal⟩ := hexact.maximal
    rw [rangesEnd, Text.from?_append, Option.some.injEq] at hleft
    rwa [hleft]
  · intro hmaximal
    exact ⟨.nil, nofun, .nil, nofun, rest, Text.from?_append _ _, hmaximal⟩

/-- The first range is that of the attribute that is found, and the others are those of the text behind it. -/
theorem exactRanges_cons_iff :
    ExactRanges (front ++ rest) (Text.byteSize front) (range :: ranges) ↔
      ∃ gap mark later, hashAttribute? rest = some (gap, mark, later) ∧
        range = (Text.byteSize (front ++ gap), Text.byteSize (front ++ gap ++ mark)) ∧
          ExactRanges (front ++ rest) (Text.byteSize (front ++ gap ++ mark)) ranges := by
  constructor
  · intro hexact
    obtain ⟨gap, hgap, hblank⟩ := hexact.blank_before range rfl
    obtain ⟨mark, hmark, hcomplete⟩ := hexact.complete range List.mem_cons_self
    -- what is cut out at the offsets settles where they are
    obtain ⟨behind, rfl, hfirst⟩ := Text.slice?_append_eq_some_iff.1 hgap
    rw [hfirst, ← List.append_assoc] at hmark
    obtain ⟨later, rfl, hlast⟩ := Text.slice?_append_eq_some_iff.1 hmark
    obtain ⟨hnext, hchain⟩ := List.isChain_cons.1 hexact.blank_between
    refine ⟨gap, mark, later, hashAttribute?_exact.2 ⟨by rw [List.append_assoc], hblank, hcomplete⟩,
      Prod.ext hfirst hlast, ?_⟩
    rw [← hlast]
    exact ⟨hexact.ordered.of_cons, hnext, hchain, (List.forall_mem_cons.1 hexact.complete).2, hexact.maximal⟩
  · rintro ⟨gap, mark, later, hfound, rfl, hexact⟩
    obtain ⟨rfl, hblank, hcomplete⟩ := hashAttribute?_exact.1 hfound
    have htext : front ++ gap ++ (mark ++ later) = front ++ (gap ++ mark ++ later) := by
      simp only [List.append_assoc]
    have hgap : Text.slice? (Text.byteSize front) (Text.byteSize (front ++ gap)) (front ++ (gap ++ mark ++ later)) =
        some gap := Text.slice?_append_eq_some_iff.2 ⟨mark ++ later, List.append_assoc .., rfl⟩
    have hmark : Text.slice? (Text.byteSize (front ++ gap)) (Text.byteSize (front ++ gap ++ mark))
        (front ++ gap ++ (mark ++ later)) = some mark := Text.slice?_append_eq_some_iff.2 ⟨later, rfl, rfl⟩
    rw [htext] at hmark
    refine ⟨List.pairwise_cons.2 ⟨hexact.start_le, hexact.ordered⟩, ?_, List.isChain_cons.2 ⟨hexact.blank_before,
      hexact.blank_between⟩, List.forall_mem_cons.2 ⟨⟨mark, hmark, hcomplete⟩, hexact.complete⟩, hexact.maximal⟩
    rintro range ⟨⟩
    exact ⟨gap, hgap, hblank⟩

/-- Exactly one list of ranges is exact, that of the attributes that are found. -/
theorem exactRanges_iff (front rest : Text) (ranges : List (Nat × Nat)) :
    ExactRanges (front ++ rest) (Text.byteSize front) ranges ↔
      ranges = rangesFrom (Text.byteSize front) (leadingHashAttributes rest).1 := by
  -- the attributes are compared with the ranges from the front, whatever was read before them
  fun_induction leadingHashAttributes rest generalizing front ranges with
  | case1 rest hnone =>
    cases ranges with
    | nil => exact iff_of_true (exactRanges_nil_iff.2 hnone) rfl
    | cons range ranges =>
      rw [exactRanges_cons_iff, hnone]
      refine iff_of_false ?_ (List.cons_ne_nil range ranges)
      rintro ⟨_, _, _, hsome, -⟩
      cases hsome
  | case2 rest gap mark later hfound hshorter more ih =>
    cases ranges with
    | nil =>
      rw [exactRanges_nil_iff, hfound]
      exact iff_of_false (Option.some_ne_none _) (List.cons_ne_nil _ _).symm
    | cons range ranges =>
      have htext : front ++ rest = front ++ gap ++ mark ++ later := by
        rw [(hashAttribute?_exact.1 hfound).1]
        simp only [List.append_assoc]
      have hranges := ih (front ++ gap ++ mark) ranges
      rw [← htext] at hranges
      rw [exactRanges_cons_iff, rangesFrom, List.cons.injEq, ← Text.byteSize_append, ← Text.byteSize_append, ← hranges]
      constructor
      · rintro ⟨_, _, _, hsome, rfl, hexact⟩
        rw [hfound] at hsome
        obtain ⟨rfl, rfl, rfl⟩ := hsome
        exact ⟨rfl, hexact⟩
      · rintro ⟨rfl, hexact⟩
        exact ⟨gap, mark, later, hfound, rfl, hexact⟩

end Ranges

section Search

/-- The byte offset of the delimiter that closes the one with which a text begins; `offset` is where the text stands,
and `depth` pairs are open there. -/
def closeOffset? (opener closer : Char) : (offset : Nat) → (depth : Int) → Text → Option Nat
  | _, _, [] => none
  | offset, depth, c :: t =>
    if c = opener then closeOffset? opener closer (offset + c.utf8Size) (depth + 1) t
    else if c = closer then
      if depth - 1 = 0 then some offset else closeOffset? opener closer (offset + c.utf8Size) (depth - 1) t
    else closeOffset? opener closer (offset + c.utf8Size) depth t

/-- The byte offset behind the complete attribute at an offset, if there is one; nothing at all if a part of the text
that is looked at cannot be cut out. -/
def attributeEnd? (first : Nat) (t : Text) : Option (Option Nat) := do
  let code ← Text.from? first t
  if Text.startsWith ['#', '['] code then
    let opened ← Text.from? (first + 1) t
    return (closeOffset? '[' ']' 0 0 opened).map fun close => first + close + 2
  else return none

theorem lt_of_attributeEnd? {first last : Nat} (hend : attributeEnd? first t = some (some last)) : first < last := by
  obtain ⟨code, -, hend⟩ := Option.bind_eq_some_iff.1 hend
  split at hend
  · obtain ⟨opened, -, hend⟩ := Option.bind_eq_some_iff.1 hend
    obtain ⟨close, -, rfl⟩ := Option.map_eq_some_iff.1 (Option.some.inj hend)
    omega
  · cases hend

theorem byteSize_trimStart_lt {first last : Nat} (hend : attributeEnd? first t = some (some last))
    (hrest : Text.from? last t = some rest) : Text.byteSize (Text.trimStart rest) < Text.byteSize t - first := by
  have hlast := lt_of_attributeEnd? hend
  have hsize := Text.byteSize_of_from? hrest
  have hblank := Text.byteSize_leadingBlank_add rest
  omega

/-- The ranges of the complete attributes after a hash from a byte offset on. -/
def hashRangesFrom? (t : Text) (first : Nat) : Option (List (Nat × Nat)) :=
  match hend : attributeEnd? first t with
  | none => none
  | some none => some []
  | some (some last) =>
    match hrest : Text.from? last t with
    | none => none
    | some rest =>
      have := byteSize_trimStart_lt hend hrest
      (hashRangesFrom? t (Text.byteSize t - Text.byteSize (Text.trimStart rest))).map ((first, last) :: ·)
termination_by Text.byteSize t - first

/-- The ranges of the complete attributes after a hash that open a text, found from offset to offset. -/
def hashRanges? (t : Text) : Option (List (Nat × Nat)) :=
  hashRangesFrom? t (Text.byteSize t - Text.byteSize (Text.trimStart t))

/-- The offset is that of the last character that the search for the end takes. -/
theorem closeOffset?_eq {opener closer : Char} {depth : Nat} (hdepth : 0 < depth) (offset : Nat) (t : Text) :
    (closeOffset? opener closer offset depth t).map (· + closer.utf8Size) =
      (upToClose? opener closer depth t).map fun parts => offset + Text.byteSize parts.1 := by
  induction t generalizing offset depth with
  | nil => rfl
  | cons c t ih =>
    have hgoes (depth' : Nat) (hdepth' : 0 < depth') :
        (closeOffset? opener closer (offset + c.utf8Size) depth' t).map (· + closer.utf8Size) =
          ((upToClose? opener closer depth' t).map fun parts => (c :: parts.1, parts.2)).map
            fun parts => offset + Text.byteSize parts.1 := by
      -- what is taken from here on is one character longer
      rw [ih hdepth', Option.map_map]
      simp only [Function.comp_def, Text.byteSize_cons, Nat.add_assoc]
    rw [closeOffset?, upToClose?]
    by_cases hopener : c = opener
    · rw [if_pos hopener, if_pos hopener]
      exact hgoes (depth + 1) (Nat.succ_pos depth)
    rw [if_neg hopener, if_neg hopener]
    by_cases hcloser : c = closer
    · rw [if_pos hcloser, if_pos hcloser]
      by_cases hlast : depth ≤ 1
      · rw [if_pos (by omega), if_pos hlast, hcloser]
        rfl
      · have hcount : (depth : Int) - 1 = (depth - 1 : Nat) := by omega
        rw [if_neg (by omega), if_neg hlast, hcount]
        exact hgoes (depth - 1) (by omega)
    · rw [if_neg hcloser, if_neg hcloser]
      exact hgoes depth hdepth

/-- The offset of the bracket that closes an attribute, counted from its first bracket. -/
theorem closeOffset?_bracket (opened : Text) :
    (closeOffset? '[' ']' 0 0 ('[' :: opened)).map (· + 1) =
      (upToClose? '[' ']' 0 ('[' :: opened)).map fun parts => Text.byteSize parts.1 := by
  have hsearch : (closeOffset? '[' ']' 1 1 opened).map (· + 1) =
      (upToClose? '[' ']' 1 opened).map fun parts => 1 + Text.byteSize parts.1 := closeOffset?_eq Nat.one_pos 1 opened
  rw [closeOffset?, if_pos rfl, upToClose?, if_pos rfl, Option.map_map]
  exact hsearch

theorem Text.from?_hash (front code : Text) : from? (byteSize front + 1) (front ++ '#' :: code) = some code := by
  have hfrom := from?_append (front ++ ['#']) code
  rwa [byteSize_append, List.append_assoc] at hfrom

/-- No end is found where no attribute begins or one that is never closed. -/
theorem attributeEnd?_of_open {code : Text} (hopen : ['#', '['] <+: code → OpenAttribute code) (front : Text) :
    attributeEnd? (Text.byteSize front) (front ++ code) = some none := by
  rw [attributeEnd?, Text.from?_append, Option.bind_eq_bind, Option.bind_some]
  by_cases hstarts : Text.startsWith ['#', '['] code = true
  · have hopens := Text.startsWith_iff.1 hstarts
    obtain ⟨opened, rfl⟩ := hashBracket_isPrefix_iff.1 hopens
    have hclose := closeOffset?_bracket opened
    rw [upToClose?_bracket_eq_none_iff.2 (hopen hopens), Option.map_none, Option.map_eq_none_iff] at hclose
    rw [if_pos hstarts, Text.from?_hash, Option.bind_some, hclose]
    rfl
  · rw [if_neg hstarts]
    rfl

/-- The end of a complete attribute is found. -/
theorem attributeEnd?_of_complete {mark : Text} (hmark : CompleteAttribute mark) (front rest : Text) :
    attributeEnd? (Text.byteSize front) (front ++ (mark ++ rest)) = some (some (Text.byteSize (front ++ mark))) := by
  obtain ⟨opened, rfl⟩ := hashBracket_isPrefix_iff.1 hmark.opens
  have hstarts : Text.startsWith ['#', '['] ('#' :: '[' :: (opened ++ rest)) = true :=
    Text.startsWith_iff.2 ⟨opened ++ rest, rfl⟩
  have hsearch : upToClose? '[' ']' 0 ('[' :: (opened ++ rest)) = some ('[' :: opened, rest) :=
    upToClose?_bracket_eq_some_iff.2 ⟨rfl, hmark⟩
  have hclose := closeOffset?_bracket (opened ++ rest)
  rw [hsearch, Option.map_some, Option.map_eq_some_iff] at hclose
  obtain ⟨close, hclose, hsize⟩ := hclose
  have hlast : Text.byteSize front + close + 2 = Text.byteSize (front ++ '#' :: '[' :: opened) := by
    have hhash : ('#' : Char).utf8Size = 1 := rfl
    rw [Text.byteSize_append, Text.byteSize_cons, ← hsize, hhash]
    omega
  rw [attributeEnd?, Text.from?_append, Option.bind_eq_bind, Option.bind_some, List.cons_append, List.cons_append,
    if_pos hstarts, Text.from?_hash, Option.bind_some, hclose, Option.map_some, hlast]
  rfl

/-- Behind a complete attribute the search goes on after the white space that follows it. -/
theorem hashRangesFrom?_of_complete {mark : Text} (hmark : CompleteAttribute mark) (front rest : Text) :
    hashRangesFrom? (front ++ (mark ++ rest)) (Text.byteSize front) =
      (hashRangesFrom? (front ++ (mark ++ rest)) (Text.byteSize (front ++ mark ++ Text.leadingBlank rest))).map
        ((Text.byteSize front, Text.byteSize (front ++ mark)) :: ·) := by
  have hend := attributeEnd?_of_complete hmark front rest
  have hrest : Text.from? (Text.byteSize (front ++ mark)) (front ++ (mark ++ rest)) = some rest := by
    rw [← List.append_assoc, Text.from?_append]
  have hnext : Text.byteSize (front ++ (mark ++ rest)) - Text.byteSize (Text.trimStart rest) =
      Text.byteSize (front ++ mark ++ Text.leadingBlank rest) := by
    have hblank := Text.byteSize_leadingBlank_add rest
    simp only [Text.byteSize_append]
    omega
  -- every part that is looked at can be cut out, so that only the last branch is left
  rw [hashRangesFrom?]
  split
  · next hfails => cases hend.symm.trans hfails
  · next hnone => cases hend.symm.trans hnone
  · next last hsome =>
    obtain rfl := Option.some.inj (Option.some.inj (hend.symm.trans hsome))
    split
    · next hfails => cases hrest.symm.trans hfails
    · next left hleft =>
      obtain rfl : rest = left := Option.some.inj (hrest.symm.trans hleft)
      rw [hnext]

/-- From the end of what was read so far the search finds the ranges of the attributes that open the rest. -/
theorem hashRangesFrom?_eq (front rest : Text) :
    hashRangesFrom? (front ++ rest) (Text.byteSize (front ++ Text.leadingBlank rest)) =
      some (rangesFrom (Text.byteSize front) (leadingHashAttributes rest).1) := by
  fun_induction leadingHashAttributes rest generalizing front with
  | case1 rest hnone =>
    have hend := attributeEnd?_of_open (hashAttribute?_eq_none_iff.1 hnone) (front ++ Text.leadingBlank rest)
    rw [List.append_assoc, Text.leadingBlank_append_trimStart] at hend
    rw [hashRangesFrom?]
    split
    · next hfails => cases hend.symm.trans hfails
    · rfl
    · next last hsome => cases hend.symm.trans hsome
  | case2 rest gap mark later hfound hshorter more ih =>
    obtain ⟨rfl, hblank, hmark⟩ := hashAttribute?_exact.1 hfound
    have htext : front ++ (gap ++ mark ++ later) = front ++ gap ++ (mark ++ later) := by
      simp only [List.append_assoc]
    have hgap : Text.leadingBlank (gap ++ mark ++ later) = gap := by
      rw [List.append_assoc, Text.leadingBlank_append hblank (hmark.startsSolid.append later)]
    have hlater := ih (front ++ gap ++ mark)
    rw [List.append_assoc (front ++ gap)] at hlater
    rw [hgap, htext, hashRangesFrom?_of_complete hmark, hlater, Option.map_some, rangesFrom,
      ← Text.byteSize_append, ← Text.byteSize_append]

/-- The search succeeds on every text. -/
theorem hashRanges?_eq (t : Text) : hashRanges? t = some (hashRanges t) := by
  have hblank := Text.byteSize_leadingBlank_add t
  have hstart : Text.byteSize t - Text.byteSize (Text.trimStart t) = Text.byteSize (Text.leadingBlank t) := by omega
  rw [hashRanges?, hstart]
  exact hashRangesFrom?_eq [] t

end Search

section Remainder

variable {t : Text}

theorem rangesEnd_rangesFrom (start : Nat) (attributes : List (Text × Text)) :
    rangesEnd start (rangesFrom start attributes) =
      start + Text.byteSize (attributes.flatMap fun gapped => gapped.1 ++ gapped.2) := by
  induction attributes generalizing start with
  | nil => rfl
  | cons gapped attributes ih =>
    rw [rangesFrom, rangesEnd, ih, List.flatMap_cons, Text.byteSize_append, Text.byteSize_append]
    omega

/-- Behind the last range stands what the attributes leave of the text. -/
theorem from?_rangesEnd (t : Text) :
    Text.from? (rangesEnd 0 (hashRanges t)) t = some (leadingHashAttributes t).2 := by
  have hfrom := Text.from?_append ((leadingHashAttributes t).1.flatMap fun gapped => gapped.1 ++ gapped.2)
    (leadingHashAttributes t).2
  rwa [← AttributeStyle.eq_of_leadingHashAttributes, ← Nat.zero_add (Text.byteSize _), ← rangesEnd_rangesFrom] at hfrom

theorem hashRanges_eq_nil_iff : hashRanges t = [] ↔ (leadingHashAttributes t).1 = [] := by
  rw [hashRanges]
  cases (leadingHashAttributes t).1 with
  | nil => exact iff_of_true rfl rfl
  | cons gapped attributes => exact iff_of_false nofun nofun

/-- What is trimmed off the end of a text does not change how an attribute begins it. -/
theorem Text.hashBracket_isPrefix_trimEnd : ['#', '['] <+: trimEnd t ↔ ['#', '['] <+: t := by
  constructor
  · exact fun hopens => hopens.trans (trimEnd_isPrefix t)
  · rintro ⟨opened, rfl⟩
    have hend := trimEnd_append_cons (show isBlank '[' = false from rfl) ['#'] opened
    exact ⟨trimEnd opened, hend.symm⟩

namespace AttributeStyle

/-- The attributes before other code take the bytes up to it. -/
theorem leadingLength_hash (t : Text) :
    AttributeStyle.hash.leadingLength t =
      if hashRanges t = [] ∨ Text.trimStart (leadingHashAttributes t).2 = [] then 0
      else rangesEnd 0 (hashRanges t) + Text.byteSize (Text.leadingBlank (leadingHashAttributes t).2) := by
  have hfront := Text.byteSize_of_from? (from?_rangesEnd t)
  have hblank := Text.byteSize_leadingBlank_add (leadingHashAttributes t).2
  simp only [leadingLength, splitLeading, hashRanges_eq_nil_iff]
  obtain ⟨attributes, rest, hleading⟩ : ∃ attributes rest, leadingHashAttributes t = (attributes, rest) := ⟨_, _, rfl⟩
  rw [hleading] at hfront hblank ⊢
  cases attributes with
  | nil => rw [if_pos (.inl rfl), Nat.sub_self]
  | cons gapped attributes =>
    dsimp only at hfront hblank ⊢
    by_cases hrest : Text.isBlankText rest = true
    · rw [if_pos hrest, if_pos (.inr (Text.isBlankText_iff.1 hrest)), Nat.sub_self]
    · rw [if_neg hrest, if_neg (not_or.2 ⟨List.cons_ne_nil _ _, mt Text.isBlankText_iff.2 hrest⟩)]
      dsimp only
      omega

/-- A line that begins with an attribute is one of its own if no code follows its complete attributes. -/
theorem startsAttribute_hash_iff : AttributeStyle.hash.startsAttribute t = true ↔
    ['#', '['] <+: t ∧ (Text.trimStart (leadingHashAttributes t).2 = [] ∨
      ['#', '['] <+: Text.trimStart (leadingHashAttributes t).2) := by
  rw [startsAttribute, Bool.and_eq_true, Bool.or_eq_true, List.isEmpty_iff, Text.trim_eq_nil_iff, Text.startsWith_iff,
    Text.startsWith_iff, Text.trim, Text.hashBracket_isPrefix_trimEnd]

end AttributeStyle

/-- The search finds the only exact ranges of a text. Before other code the attributes take the bytes up to its first
character; and a line is an attribute on a line of its own exactly if it begins with one and nothing follows the last
range but an attribute that is never closed. -/
theorem hashRanges_exact (t : Text) :
    hashRanges? t = some (hashRanges t) ∧ (∀ ranges, ExactRanges t 0 ranges ↔ ranges = hashRanges t) ∧
    ∃ rest, Text.from? (rangesEnd 0 (hashRanges t)) t = some rest ∧
      (AttributeStyle.hash.leadingLength t =
        if hashRanges t = [] ∨ Text.trimStart rest = [] then 0
        else rangesEnd 0 (hashRanges t) + Text.byteSize (Text.leadingBlank rest)) ∧
      (AttributeStyle.hash.startsAttribute t = true ↔
        ['#', '['] <+: t ∧ (Text.trimStart rest = [] ∨ OpenAttribute (Text.trimStart rest))) := by
  have hranges := exactRanges_iff [] t
  obtain ⟨rest, hrest, hmaximal⟩ := ((hranges (hashRanges t)).2 rfl).maximal
  obtain rfl : (leadingHashAttributes t).2 = rest := Option.some.inj ((from?_rangesEnd t).symm.trans hrest)
  have hopen : ['#', '['] <+: Text.trimStart (leadingHashAttributes t).2 ↔
      OpenAttribute (Text.trimStart (leadingHashAttributes t).2) := ⟨hmaximal, OpenAttribute.opens⟩
  refine ⟨hashRanges?_eq t, hranges, _, hrest, AttributeStyle.leadingLength_hash t, ?_⟩
  rw [AttributeStyle.startsAttribute_hash_iff, hopen]

/-- Two attributes with white space of three bytes between them, and one that goes on in the next line. -/
def openLine : Text :=
  "#[a[0]]\u3000#[é] #[cfg(x[".toList

theorem hashRanges_exact_openLine :
    hashRanges? openLine = some [(0, 7), (10, 15)] ∧ ExactRanges openLine 0 [(0, 7), (10, 15)] ∧
      AttributeStyle.hash.leadingLength openLine = 16 ∧ AttributeStyle.hash.startsAttribute openLine = true := by
  have hranges : hashRanges openLine = [(0, 7), (10, 15)] := by decide +kernel
  have hbehind : Text.from? 15 openLine = some " #[cfg(x[".toList := by decide +kernel
  obtain ⟨hsearch, hexact, rest, hrest, hlength, hstarts⟩ := hashRanges_exact openLine
  simp only [hranges] at hsearch hexact hrest hlength
  have hexact := (hexact _).2 rfl
  obtain ⟨left, hleft, hopen⟩ := hexact.maximal
  obtain rfl := Option.some.inj (hbehind.symm.trans hrest)
  obtain rfl := Option.some.inj (hbehind.symm.trans hleft)
  exact ⟨hsearch, hexact, hlength.trans (by decide), hstarts.2 ⟨by decide, .inr (hopen (by decide))⟩⟩

end Remainder

end Outline
