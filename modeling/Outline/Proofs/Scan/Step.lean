import Outline.Proofs.Extent.Bounds
import Outline.Proofs.Scan.Role

namespace Outline

/-- A property of windows that passes from all shorter windows to a window holds of every window. -/
theorem window_induction {motive : List Text → Prop} (nil : motive [])
    (cons : ∀ line rest, (∀ shorter : List Text, shorter.length ≤ rest.length → motive shorter) →
      motive (line :: rest)) (window : List Text) : motive window := by
  induction hlength : window.length using Nat.strongRecOn generalizing window with
  | ind n ih =>
    cases window with
    | nil => exact nil
    | cons line rest =>
      refine cons line rest fun shorter hle => ih shorter.length ?_ shorter rfl
      rw [← hlength, List.length_cons]
      omega

namespace Grammar

variable {grammar : Grammar} {limits : Limits} {depth index : Nat} {carry : Carry} {progress : Progress}
  {line : Text} {rest : List Text} {heading : Heading} {attrs : Text} {pending : Pending} {skipped : Carry}

section Declared

/-- A name declares something unless it is blank, wherever it stands and however far it reaches. -/
theorem declaration?_eq_none_iff {extent : Extent} {window : List Text} :
    grammar.declaration? index attrs heading extent pending window = none ↔
      (Text.trim heading.name).isEmpty = true := by
  simp [declaration?, Declaration.declare?]

theorem exists_declaration {extent : Extent} {window : List Text}
    (hname : ¬ (Text.trim heading.name).isEmpty = true) :
    ∃ declared, grammar.declaration? index attrs heading extent pending window = some declared :=
  Option.ne_none_iff_exists'.1 fun hnone => hname (declaration?_eq_none_iff.1 hnone)

theorem of_declaration?_eq_some {extent : Extent} {window : List Text} {declared : Declaration}
    (hdeclared : grammar.declaration? index attrs heading extent pending window = some declared)
    (hextent : index ≤ extent.last) :
    declared.kind = heading.rule.kind ∧ declared.startLine = index + 1 ∧
      declared.endLine = extent.last + 1 ∧ declared.children = [] := by
  simp only [declaration?, Option.map_eq_some_iff] at hdeclared
  obtain ⟨bare, hbare, rfl⟩ := hdeclared
  simp only [Declaration.declare?] at hbare
  split at hbare
  · simp at hbare
  · obtain rfl := Option.some.inj hbare
    refine ⟨rfl, ?_, ?_, rfl⟩
    · exact Nat.max_eq_left (Nat.le_add_left _ _)
    · simp only [Declaration.withModifiers, Declaration.withDocstring, Declaration.endLine]
      omega

end Declared

section Run

/-- The scan of what stands inside a declaration, before its lines are kept in bounds. -/
def scanInside (grammar : Grammar) (limits : Limits) (depth index : Nat) (heading : Heading)
    (extent : Extent) (declared : Declaration) (noted : Progress) (rest : List Text) :
    List Declaration × Progress :=
  if heading.rule.kind.isContainer && extent.hasInterior then
    if limits.maxDepth ≤ depth + 1 then ([], noted.emit.noteDepth limits declared)
    else
      grammar.scanLines limits (depth + 1) (extent.headerEnd + 1) .start noted.emit
        (grammar.interior index extent rest)
  else ([], noted.emit)

theorem scanLines_nil : grammar.scanLines limits depth index carry progress [] = ([], progress) := by
  rw [scanLines]

theorem scanLines_exhausted (hstopped : progress.exhausted = true) (window : List Text) :
    grammar.scanLines limits depth index carry progress window = ([], progress) := by
  cases window with
  | nil => exact scanLines_nil
  | cons line rest => rw [scanLines, if_pos hstopped]

theorem scanLines_passed {further : Nat} {carried : Carry} (hrunning : progress.exhausted = false)
    (hrole : grammar.roleOf carry line rest = .passed further carried) :
    grammar.scanLines limits depth index carry progress (line :: rest) =
      grammar.scanLines limits depth (index + 1 + further) carried progress (rest.drop further) := by
  rw [scanLines, if_neg (by simp [hrunning])]
  by_cases hinside : carry.isInside = true
  · rw [roleOf, if_pos hinside] at hrole
    obtain ⟨rfl, rfl⟩ := LineRole.passed.inj hrole
    rw [if_pos hinside, List.drop_zero, Nat.add_zero]
  rw [roleOf, if_neg hinside] at hrole
  rw [if_neg hinside]
  cases hprelude : grammar.preludeOf carry.pending line rest with
  | blank =>
    rw [hprelude] at hrole
    obtain ⟨rfl, rfl⟩ := LineRole.passed.inj hrole
    rfl
  | absorbed waiting taken =>
    rw [hprelude] at hrole
    obtain ⟨rfl, rfl⟩ := LineRole.passed.inj hrole
    rfl
  | code waiting lead code =>
    rw [hprelude] at hrole
    dsimp only at hrole ⊢
    cases hheading : grammar.heading? (Text.byteSize (lead ++ (grammar.attributes.splitLeading code).1))
        (grammar.attributes.splitLeading code).2 with
    | none =>
      rw [hheading] at hrole
      obtain ⟨rfl, rfl⟩ := LineRole.passed.inj hrole
      rfl
    | some found =>
      rw [hheading] at hrole
      exact LineRole.noConfusion hrole

/-- Blank lines in code only move what comes after them. -/
theorem scanLines_blank {blank : List Text} (hblank : ∀ line ∈ blank, (Text.trim line).isEmpty = true)
    (hrunning : progress.exhausted = false) (hcode : carry.isInside = false) (window : List Text) :
    grammar.scanLines limits depth index carry progress (blank ++ window) =
      grammar.scanLines limits depth (index + blank.length) carry progress window := by
  induction blank generalizing index with
  | nil => rfl
  | cons line blank ih =>
    have hrole := grammar.roleOf_blank hcode (hblank line List.mem_cons_self) (blank ++ window)
    rw [List.cons_append, scanLines_passed hrunning hrole, List.drop_zero,
      ih fun other hmem => hblank other (List.mem_cons_of_mem _ hmem)]
    rw [List.length_cons, Nat.add_zero, Nat.add_right_comm, Nat.add_assoc]

/-- A line that a rule accepts stops the scan, is skipped for its blank name, or declares something. -/
theorem scanLines_heads (hrunning : progress.exhausted = false)
    (hrole : grammar.roleOf carry line rest = .heads heading attrs pending skipped) :
    grammar.scanLines limits depth index carry progress (line :: rest) =
      if limits.maxDeclarations ≤ progress.emitted then ([], progress.exhaust limits index)
      else
        let extent := grammar.extent limits heading.rule.body index (line :: rest)
        let noted := progress.noteExtent index heading extent
        match grammar.declaration? index attrs heading extent pending (line :: rest) with
        | none => grammar.scanLines limits depth (index + 1) skipped noted rest
        | some declared =>
          let inner := grammar.scanInside limits depth index heading extent declared noted rest
          let later :=
            grammar.scanLines limits depth (extent.last + 1) .start inner.2 (rest.drop (extent.last - index))
          (declared.withChildren (inner.1.map
            (Declaration.clampInto (extent.headerEnd + 2) (grammar.interiorLast extent + 1))) :: later.1,
            later.2) := by
  rw [scanLines, if_neg (by simp [hrunning])]
  by_cases hinside : carry.isInside = true
  · rw [roleOf, if_pos hinside] at hrole
    simp at hrole
  rw [roleOf, if_neg hinside] at hrole
  rw [if_neg hinside]
  cases hprelude : grammar.preludeOf carry.pending line rest with
  | blank => simp [hprelude] at hrole
  | absorbed waiting taken => simp [hprelude] at hrole
  | code waiting lead code =>
    rw [hprelude] at hrole
    dsimp only at hrole ⊢
    cases hheading : grammar.heading? (Text.byteSize (lead ++ (grammar.attributes.splitLeading code).1))
        (grammar.attributes.splitLeading code).2 with
    | none =>
      rw [hheading] at hrole
      exact LineRole.noConfusion hrole
    | some found =>
      rw [hheading] at hrole
      obtain ⟨rfl, rfl, rfl, rfl⟩ := LineRole.heads.inj hrole
      rfl

theorem scanLines_full (hrunning : progress.exhausted = false)
    (hrole : grammar.roleOf carry line rest = .heads heading attrs pending skipped)
    (hfull : limits.maxDeclarations ≤ progress.emitted) :
    grammar.scanLines limits depth index carry progress (line :: rest) =
      ([], progress.exhaust limits index) := by
  rw [scanLines_heads hrunning hrole, if_pos hfull]

theorem scanLines_rejected {extent : Extent} (hrunning : progress.exhausted = false)
    (hrole : grammar.roleOf carry line rest = .heads heading attrs pending skipped)
    (hroom : progress.emitted < limits.maxDeclarations)
    (hextent : grammar.extent limits heading.rule.body index (line :: rest) = extent)
    (hblank : (Text.trim heading.name).isEmpty = true) :
    grammar.scanLines limits depth index carry progress (line :: rest) =
      grammar.scanLines limits depth (index + 1) skipped (progress.noteExtent index heading extent) rest := by
  rw [scanLines_heads hrunning hrole, if_neg (Nat.not_le.2 hroom)]
  simp only [hextent, declaration?_eq_none_iff.2 hblank]

theorem scanLines_declared {extent : Extent} {declared : Declaration} (hrunning : progress.exhausted = false)
    (hrole : grammar.roleOf carry line rest = .heads heading attrs pending skipped)
    (hroom : progress.emitted < limits.maxDeclarations)
    (hextent : grammar.extent limits heading.rule.body index (line :: rest) = extent)
    (hdeclared : grammar.declaration? index attrs heading extent pending (line :: rest) = some declared) :
    grammar.scanLines limits depth index carry progress (line :: rest) =
      let inner := grammar.scanInside limits depth index heading extent declared
        (progress.noteExtent index heading extent) rest
      let later :=
        grammar.scanLines limits depth (extent.last + 1) .start inner.2 (rest.drop (extent.last - index))
      (declared.withChildren (inner.1.map
        (Declaration.clampInto (extent.headerEnd + 2) (grammar.interiorLast extent + 1))) :: later.1,
        later.2) := by
  rw [scanLines_heads hrunning hrole, if_neg (Nat.not_le.2 hroom)]
  simp only [hextent, hdeclared]

section Inside

variable {extent : Extent} {declared : Declaration} {noted : Progress}

theorem scanInside_closed (hclosed : (heading.rule.kind.isContainer && extent.hasInterior) = false) :
    grammar.scanInside limits depth index heading extent declared noted rest = ([], noted.emit) := by
  rw [scanInside, hclosed]
  rfl

theorem scanInside_tooDeep (hopen : (heading.rule.kind.isContainer && extent.hasInterior) = true)
    (hdeep : limits.maxDepth ≤ depth + 1) :
    grammar.scanInside limits depth index heading extent declared noted rest =
      ([], noted.emit.noteDepth limits declared) := by
  rw [scanInside, if_pos hopen, if_pos hdeep]

theorem scanInside_open (hopen : (heading.rule.kind.isContainer && extent.hasInterior) = true)
    (hdeep : depth + 1 < limits.maxDepth) :
    grammar.scanInside limits depth index heading extent declared noted rest =
      grammar.scanLines limits (depth + 1) (extent.headerEnd + 1) .start noted.emit
        (grammar.interior index extent rest) := by
  rw [scanInside, if_pos hopen, if_neg (Nat.not_le.2 hdeep)]

end Inside

/-- What stands inside a declaration is not scanned, cut off for its depth, or scanned as a window. -/
theorem scanInside_cases (grammar : Grammar) (limits : Limits) (depth index : Nat) (heading : Heading)
    (extent : Extent) (declared : Declaration) (noted : Progress) (rest : List Text) :
    ((heading.rule.kind.isContainer && extent.hasInterior) = false ∧
      grammar.scanInside limits depth index heading extent declared noted rest = ([], noted.emit)) ∨
    ((heading.rule.kind.isContainer && extent.hasInterior) = true ∧ limits.maxDepth ≤ depth + 1 ∧
      grammar.scanInside limits depth index heading extent declared noted rest =
        ([], noted.emit.noteDepth limits declared)) ∨
    ((heading.rule.kind.isContainer && extent.hasInterior) = true ∧ depth + 1 < limits.maxDepth ∧
      grammar.scanInside limits depth index heading extent declared noted rest =
        grammar.scanLines limits (depth + 1) (extent.headerEnd + 1) .start noted.emit
          (grammar.interior index extent rest)) := by
  cases hopen : heading.rule.kind.isContainer && extent.hasInterior with
  | false => exact .inl ⟨rfl, scanInside_closed hopen⟩
  | true =>
    refine .inr ?_
    by_cases hdeep : limits.maxDepth ≤ depth + 1
    · exact .inl ⟨rfl, hdeep, scanInside_tooDeep hopen hdeep⟩
    · exact .inr ⟨rfl, Nat.not_le.1 hdeep, scanInside_open hopen (Nat.not_le.1 hdeep)⟩

end Run

section Windows

variable {extent : Extent}

theorem interiorLast_le (grammar : Grammar) (extent : Extent) : grammar.interiorLast extent ≤ extent.last := by
  unfold interiorLast
  split
  · exact Nat.le_refl _
  · exact Nat.sub_le _ _

theorem headerEnd_le_interiorLast (grammar : Grammar) (hinterior : extent.hasInterior = true) :
    extent.headerEnd ≤ grammar.interiorLast extent := by
  simp only [Extent.hasInterior, Bool.and_eq_true, decide_eq_true_eq] at hinterior
  unfold interiorLast
  split <;> omega

theorem length_interior_le (grammar : Grammar) (index : Nat) (extent : Extent) (rest : List Text) :
    (grammar.interior index extent rest).length ≤ grammar.interiorLast extent - extent.headerEnd ∧
      (grammar.interior index extent rest).length ≤ rest.length := by
  simp only [interior, List.length_take, List.length_drop]
  omega

end Windows

end Grammar

end Outline
