import Outline.Proofs.Merge.Placing

namespace Outline.Declaration

/-- Every child of the tree lies within the lines of its parent. -/
def Contained (declarations : List Declaration) : Prop :=
  ∀ d ∈ walkAll declarations, ∀ child ∈ d.children, d.contains child = true

/-- The children lie within the lines of the declaration, and so on downwards. -/
def Encloses (d : Declaration) : Prop :=
  (∀ child ∈ d.children, d.contains child = true) ∧ Contained d.children

theorem contained_iff {declarations : List Declaration} :
    Contained declarations ↔ ∀ d ∈ declarations, d.Encloses := by
  constructor
  · intro hcontained d hmem
    refine ⟨hcontained d (Ordered.mem_walkAll_of_mem hmem), fun inner hinner => ?_⟩
    exact hcontained inner (mem_walkAll_of_mem_children hmem hinner)
  · intro hall d hmem
    obtain ⟨top, htop, rfl | hinner⟩ := exists_of_mem_walkAll hmem
    · exact (hall d htop).1
    · exact (hall top htop).2 d hinner

/-- A list into which children of `parent` are put: all of it lies inside, and the children that the parent had
before can still be found. -/
structure Fits (parent : Declaration) (merged : List Declaration) : Prop where
  inside : ∀ d ∈ merged, parent.contains d = true
  encloses : ∀ d ∈ merged, d.Encloses
  found : ∀ d ∈ parent.children, ∃ d' ∈ merged, d'.signature = d.signature

/-- A child that is let in fits, inside or as a part of one that is the same. -/
theorem Fits.place {parent child : Declaration} {merged : List Declaration} (h : Fits parent merged)
    (hadmits : parent.admits child = true) (hencloses : ∀ d ∈ place merged child, d.Encloses) :
    Fits parent (place merged child) where
  inside := by
    intro d hd
    rcases mem_place hd with hd | ⟨absorber, habsorber, _, rfl⟩ | ⟨hnone, rfl⟩
    · exact h.inside d hd
    · exact h.inside absorber habsorber
    -- nothing in the list is the same, so no earlier child is, and the new one was let in for its lines
    · rcases Bool.or_eq_true_iff.1 hadmits with hinside | hsame
      · exact hinside
      · obtain ⟨old, hmem, hsame⟩ := List.any_eq_true.1 hsame
        obtain ⟨old', hmem', hsignature⟩ := h.found old hmem
        rw [← same_congr hsignature, hnone old' hmem'] at hsame
        cases hsame
  encloses := hencloses
  found := by
    intro d hd
    obtain ⟨d', hd', hsignature⟩ := h.found d hd
    obtain ⟨d'', hd'', hsignature'⟩ := exists_signature_of_mem hd' child
    exact ⟨d'', hd'', hsignature'.trans hsignature⟩

/-- Absorbing keeps children inside, if the secondary ones can be put in one by one. -/
theorem encloses_absorb {target other : Declaration} (htarget : target.Encloses)
    (hplace : ∀ child ∈ other.children, ∀ merged : List Declaration, (∀ d ∈ merged, d.Encloses) →
      ∀ d ∈ place merged child, d.Encloses) : (target.absorb other).Encloses := by
  have hstart : Fits target target.children :=
    ⟨htarget.1, contained_iff.1 htarget.2, fun d hd => ⟨d, hd, rfl⟩⟩
  have hfits : Fits target ((other.children.filter target.admits).foldl place target.children) := by
    refine foldl_place_induction _ (fun child hchild merged h => ?_) hstart
    obtain ⟨hchild, hadmits⟩ := List.mem_filter.1 hchild
    exact h.place hadmits (hplace child hchild merged h.encloses)
  refine ⟨fun child hchild => hfits.inside child (mem_merge.1 hchild), contained_iff.2 fun child hchild => ?_⟩
  exact hfits.encloses child (mem_merge.1 hchild)

/-- Putting a declaration into a list keeps children inside, at every depth. -/
theorem encloses_of_mem_place {other : Declaration} (hother : other.Encloses) (merged : List Declaration)
    (hmerged : ∀ d ∈ merged, d.Encloses) : ∀ d ∈ place merged other, d.Encloses := by
  induction other using children_induction generalizing merged with
  | step other ih =>
    intro d hd
    rcases mem_place hd with hd | ⟨target, htarget, _, rfl⟩ | ⟨_, rfl⟩
    · exact hmerged d hd
    · refine encloses_absorb (hmerged target htarget) fun child hchild => ?_
      exact ih child hchild (contained_iff.1 hother.2 child hchild)
    · exact hother

/-- Merging keeps children inside their parents at every depth. Nothing else is assumed of the two outlines: a
secondary child that lies outside its new parent is absorbed by a child or left out, and a child that absorbs others
keeps its lines. -/
theorem contained_merge {primary secondary : List Declaration} (hprimary : Contained primary)
    (hsecondary : Contained secondary) : Contained (merge primary secondary) := by
  rw [contained_iff] at hprimary hsecondary ⊢
  have hplaced : ∀ d ∈ secondary.foldl place primary, d.Encloses := by
    refine foldl_place_induction (motive := fun merged => ∀ d ∈ merged, d.Encloses) secondary ?_ hprimary
    exact fun other hmem merged => encloses_of_mem_place (hsecondary other hmem) merged
  exact fun d hd => hplaced d (mem_merge.1 hd)

/-- A class that is narrower in the first outline than in the second, with a method that reaches beyond it. -/
def narrowClass : List Declaration :=
  [⟨⟨.classType, "A", 3, 6, .empty, none⟩, [⟨⟨.method, "f", 4, 5, .empty, none⟩, []⟩]⟩]

def wideClass : List Declaration :=
  [⟨⟨.classType, "A", 1, 20, .empty, none⟩, [⟨⟨.method, "f", 5, 9, .empty, none⟩, []⟩,
    ⟨⟨.method, "g", 6, 6, .empty, none⟩, []⟩, ⟨⟨.method, "h", 10, 12, .empty, none⟩, []⟩]⟩]

theorem contained_merge_classes :
    Contained narrowClass ∧ Contained wideClass ∧
      (walkAll (merge narrowClass wideClass)).map signature =
        [(.classType, "A", 3, 6), (.method, "f", 4, 5), (.method, "g", 6, 6)] ∧
      Contained (merge narrowClass wideClass) := by
  have hnarrow : Contained narrowClass := by unfold Contained; decide
  have hwide : Contained wideClass := by unfold Contained; decide
  refine ⟨hnarrow, hwide, ?_, contained_merge hnarrow hwide⟩
  simp (disch := decide) [merge, sorted_of_pairwise, narrowClass, wideClass, placeAll, place, updateFirst, same,
    admits, contains, kind, name, startLine, endLine, walkAll, walk, signature, Entry.fill]

end Outline.Declaration
