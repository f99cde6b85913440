import Outline.Proofs.Lexing.Comments
import Outline.Proofs.Pattern.Displacement

namespace Outline

/-- Spaces before a text move the first place of what begins with something solid. -/
theorem Text.cut?_spaces {needle : Text} (hneedle : Text.StartsSolid needle) (n : Nat) (t : Text) :
    Text.cut? needle (Text.spaces n ++ t) =
      (Text.cut? needle t).map fun parts => (Text.spaces n ++ parts.1, parts.2) := by
  induction n with
  | zero => simp [Text.spaces]
  | succ n ih =>
    have hnone : Text.strip? needle (' ' :: (Text.spaces n ++ t)) = none := by
      obtain ⟨c, rest, rfl, hc⟩ := hneedle
      have hspace : c ≠ ' ' := by
        rintro rfl
        exact absurd hc (by decide)
      rw [Text.strip?, if_neg hspace]
    change Text.cut? needle (' ' :: (Text.spaces n ++ t)) = _
    rw [Text.cut?, hnone, ih, Option.map_map]
    rfl

namespace Pattern

variable {p : Pattern} {avoid t : Text}

/-- Whether every match takes a character that is not one of those to avoid. -/
def takesOutside (avoid : Text) : Pattern → Bool
  | .one cls => avoid.all fun c => !cls.contains c
  | .seq first second => first.takesOutside avoid || second.takesOutside avoid
  | .alt first second => first.takesOutside avoid && second.takesOutside avoid
  | .group _ body => body.takesOutside avoid
  | .empty | .run .. | .assert _ | .star .. => false

theorem Takes.exists_outside (htakes : Takes p t) (hp : p.takesOutside avoid = true) : ∃ c ∈ t, c ∉ avoid := by
  induction p generalizing t with
  | one cls =>
    obtain ⟨c, rfl, hclass⟩ := exists_of_takes_one htakes
    refine ⟨c, List.mem_singleton_self c, fun hmem => ?_⟩
    simpa [hclass] using List.all_eq_true.1 hp c hmem
  | seq first second ihfirst ihsecond =>
    obtain ⟨s, u, rfl, hs, hu⟩ := exists_of_takes_seq htakes
    rcases Bool.or_eq_true_iff.1 hp with hp | hp
    · obtain ⟨c, hmem, hc⟩ := ihfirst hs hp
      exact ⟨c, List.mem_append_left u hmem, hc⟩
    · obtain ⟨c, hmem, hc⟩ := ihsecond hu hp
      exact ⟨c, List.mem_append_right s hmem, hc⟩
  | alt first second ihfirst ihsecond =>
    obtain ⟨hfirst, hsecond⟩ := Bool.and_eq_true_iff.1 hp
    exact (takes_or_takes_of_alt htakes).elim (ihfirst · hfirst) (ihsecond · hsecond)
  | group label body ih => exact ih (takes_of_group htakes) hp
  | empty | run | assert | star => cases hp

end Pattern

section Naming

variable {n : Nat} {found : Cursor}

theorem Naming.name?_displace (naming : Naming) (n : Nat) (found : Cursor) :
    naming.name? (found.displace n) = naming.name? found := by
  cases naming <;> simp only [name?, Cursor.text?_displace]

/-- Spaces before the code move the name. -/
theorem Grammar.nameStart_displace {name : Text} (hname : Text.StartsSolid name) (n : Nat) (code : Text)
    (found : Cursor) :
    nameStart (Text.spaces n ++ code) name (found.displace n) = nameStart code name found + n := by
  have hlength : (Text.spaces n).length = n := List.length_replicate
  simp only [nameStart, Cursor.capture?_displace, Text.cut?_spaces hname]
  cases found.capture? .name with
  | some capture => rfl
  | none =>
    cases Text.cut? name code with
    | some parts => simp only [Option.map_none, Option.map_some, List.length_append, hlength, Nat.add_comm]
    | none => simp only [Option.map_none, List.length_append, hlength, Nat.add_comm]

end Naming

namespace Grammar

variable {grammar : Grammar} {code : Text}

/-- Every rule of the grammar begins with white space that something solid has to follow. -/
def AbsorbsSpaces (grammar : Grammar) : Prop :=
  ∀ rule ∈ grammar.rules, rule.pattern.absorbsSpaces = true ∧ rule.pattern.leavesSpaces = true

theorem headingBy?_hidden (hnames : grammar.NamesSolid) (habsorbs : grammar.AbsorbsSpaces) {rule : Rule}
    (hrule : rule ∈ grammar.rules) (hcode : Text.StartsSolid code) (hidden : Nat) :
    grammar.headingBy? hidden code rule = grammar.headingBy? 0 code rule := by
  obtain ⟨hspaces, hleaves⟩ := habsorbs rule hrule
  have hmatch := Pattern.matchStart?_spaces hcode hidden hspaces hleaves
  have hplain : Text.spaces 0 ++ code = code := rfl
  simp only [headingBy?, hmatch, hplain]
  cases hfound : rule.pattern.matchStart? code with
  | none => rfl
  | some found =>
    simp only [Option.map_some, Naming.name?_displace]
    cases hname : rule.naming.name? found with
    | none => rfl
    | some name =>
      have hsolid := hnames.solid_of_name? hrule hfound hname
      simp only [nameStart_displace hsolid.starts, Nat.add_sub_cancel, Nat.sub_zero]

/-- What is hidden before the code changes nothing of what the code declares. -/
theorem heading?_hidden (hnames : grammar.NamesSolid) (habsorbs : grammar.AbsorbsSpaces)
    (hcode : Text.StartsSolid code) (hidden : Nat) : grammar.heading? hidden code = grammar.heading? 0 code := by
  exact findSome?_eq_of_within (fun _ => True)
    (fun rule hrule _ => headingBy?_hidden hnames habsorbs hrule hcode hidden) fun _ _ => trivial

/-- Code that declares something has a character apart from those that every rule goes beyond. -/
theorem exists_outside_of_heading? {avoid : Text}
    (havoid : ∀ rule ∈ grammar.rules, rule.pattern.takesOutside avoid = true) {heading : Heading}
    (hheading : grammar.heading? 0 code = some heading) : ∃ c ∈ code, c ∉ avoid := by
  obtain ⟨hrule, -, -, found, hfound, -⟩ := of_heading?_eq_some hheading
  have hmatches := Pattern.matches_of_matchStart? hfound
  obtain ⟨taken, hrest, -, -⟩ := hmatches.exists_taken
  obtain ⟨c, hmem, hc⟩ := Pattern.Takes.exists_outside ⟨_, _, hmatches, hrest⟩ (havoid heading.rule hrule)
  have hcode : code = taken ++ found.rest := hrest
  exact ⟨c, hcode ▸ List.mem_append_left _ hmem, hc⟩

end Grammar

end Outline
