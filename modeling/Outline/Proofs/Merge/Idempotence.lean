import Mathlib.Data.List.Nodup
import Mathlib.Data.List.Pairwise
import Outline.Proofs.Merge.Containment

namespace Outline.Declaration

/-- The two have no line in common. -/
def Apart (a b : Declaration) : Prop :=
  a.endLine < b.startLine ∨ b.endLine < a.startLine

/-- The shape of an outline that comes from a scan, on every level. -/
structure ScanShaped (declarations : List Declaration) : Prop where
  ranged : ∀ d ∈ walkAll declarations, d.startLine ≤ d.endLine
  ordered : declarations.Pairwise fun a b => a.startLine ≤ b.startLine
  ordered_children : ∀ d ∈ walkAll declarations, d.children.Pairwise fun a b => a.startLine ≤ b.startLine
  apart : declarations.Pairwise Apart
  apart_children : ∀ d ∈ walkAll declarations, d.children.Pairwise Apart
  contained : Contained declarations

/-- The shape of one declaration of such an outline. -/
structure Framed (d : Declaration) : Prop where
  ranged : d.startLine ≤ d.endLine
  contains : ∀ child ∈ d.children, d.contains child = true
  shaped : ScanShaped d.children

section Shape

variable {declarations : List Declaration} {x y c d : Declaration}

theorem Apart.symm (h : x.Apart y) : y.Apart x :=
  Or.symm h

instance (a b : Declaration) : Decidable (a.Apart b) :=
  inferInstanceAs (Decidable (_ ∨ _))

instance : Std.Symm Apart :=
  ⟨fun _ _ => Apart.symm⟩

theorem same_eq_false_of_apart (h : x.Apart y) : x.same y = false := by
  rw [Bool.eq_false_iff, ne_eq, same_iff]
  rcases h with h | h <;> omega

theorem ScanShaped.framed (h : ScanShaped declarations) (hmem : d ∈ declarations) : d.Framed := by
  have hwalk := Ordered.mem_walkAll_of_mem hmem
  refine ⟨h.ranged d hwalk, h.contained d hwalk, ?_⟩
  constructor
  · exact fun inner hinner => h.ranged inner (mem_walkAll_of_mem_children hmem hinner)
  · exact h.ordered_children d hwalk
  · exact fun inner hinner => h.ordered_children inner (mem_walkAll_of_mem_children hmem hinner)
  · exact h.apart_children d hwalk
  · exact fun inner hinner => h.apart_children inner (mem_walkAll_of_mem_children hmem hinner)
  · exact fun inner hinner => h.contained inner (mem_walkAll_of_mem_children hmem hinner)

theorem ScanShaped.pairwise_startLine_lt (h : ScanShaped declarations) :
    declarations.Pairwise fun a b => a.startLine < b.startLine := by
  refine (h.ordered.and h.apart).imp_of_mem ?_
  rintro a b ha hb ⟨hle, hapart⟩
  have ha := (h.framed ha).ranged
  have hb := (h.framed hb).ranged
  rcases hapart with hapart | hapart <;> omega

theorem ScanShaped.sorted_eq (h : ScanShaped declarations) : sorted declarations = declarations :=
  sorted_of_pairwise (h.pairwise_startLine_lt.imp fun hlt => before_iff.2 (.inl hlt))

theorem ScanShaped.eq_or_apart (h : ScanShaped declarations) (hx : x ∈ declarations) (hy : y ∈ declarations) :
    x = y ∨ x.Apart y := by
  by_cases heq : x = y
  · exact .inl heq
  · exact .inr (h.apart.forall hx hy heq)

/-- What stands inside two declarations without a common line has none either. -/
theorem Apart.inside (h : x.Apart y) (hx : x.Framed) (hy : y.Framed) (hc : c ∈ x.children) (hd : d ∈ y.children) :
    c.Apart d := by
  have hc := contains_iff.1 (hx.contains c hc)
  have hd := contains_iff.1 (hy.contains d hd)
  rcases h with h | h
  · exact .inl (by omega)
  · exact .inr (by omega)

end Shape

/-- Those of the list that could absorb `other` follow each other by first line, and so on for the children. -/
inductive Receives : List Declaration → Declaration → Prop where
  | intro {merged : List Declaration} {other : Declaration}
      (ranked : ((merged.filter fun d => d.same other).map startLine).Pairwise (· < ·))
      (inside : ∀ d ∈ merged, d.same other = true → ∀ child ∈ other.children, Receives d.children child) :
      Receives merged other

/-- The first of the list that could absorb `other` has nothing to take from it, and so on for the children. -/
inductive Holds : List Declaration → Declaration → Prop where
  | intro {merged : List Declaration} {other target : Declaration}
      (first : (merged.find? fun d => d.same other) = some target)
      (filled : target.entry.fill other.entry = target.entry) (ordered : sorted target.children = target.children)
      (inside : ∀ child ∈ other.children, target.admits child = true → Holds target.children child) :
      Holds merged other

theorem Holds.place_eq {merged : List Declaration} {other : Declaration} (h : Holds merged other) :
    place merged other = merged := by
  induction h with
  | @intro merged other target first filled ordered _ ih =>
    have hchildren : merge target.children (other.children.filter target.admits) = target.children := by
      refine merge_eq_self (fun child hchild => ?_) ordered
      obtain ⟨hmem, hadmits⟩ := List.mem_filter.1 hchild
      exact ih child hmem hadmits
    rw [Declaration.place_eq]
    refine updateFirst_eq_self first ?_
    rw [absorb, filled, hchildren]
    exact withChildren_children target

section Sorting

variable {merged : List Declaration} {other : Declaration}

/-- Sorting leaves the order of those that could absorb a declaration as it is. -/
theorem filter_sorted (hranked : ((merged.filter fun d => d.same other).map startLine).Pairwise (· < ·)) :
    ((sorted merged).filter fun d => d.same other) = merged.filter fun d => d.same other := by
  have hlines : ((merged.filter fun d => d.same other).map startLine).Nodup := hranked.imp Nat.ne_of_lt
  have hperm := (sorted_perm merged).filter fun d => d.same other
  have hsorted := (pairwise_sorted merged).filter fun d => d.same other
  refine List.Perm.eq_of_pairwise ?_ hsorted ?_ hperm
  · intro a b ha hb hab hba
    refine List.inj_on_of_nodup_map hlines (hperm.mem_iff.1 ha) hb ?_
    rw [before_iff] at hab hba
    omega
  · rw [List.pairwise_map] at hranked
    exact hranked.imp fun hlt => before_iff.2 (.inl hlt)

theorem Receives.sorted (h : Receives merged other) : Receives (sorted merged) other := by
  obtain ⟨ranked, inside⟩ := h
  refine ⟨?_, fun d hd => inside d (mem_sorted.1 hd)⟩
  rwa [filter_sorted ranked]

theorem Holds.sorted (h : Holds merged other) (hreceives : Receives merged other) : Holds (sorted merged) other := by
  obtain ⟨ranked, _⟩ := hreceives
  obtain ⟨first, filled, ordered, inside⟩ := h
  refine .intro ?_ filled ordered inside
  rwa [← List.head?_filter, filter_sorted ranked, List.head?_filter]

end Sorting

section Receiving

variable {merged : List Declaration} {x y : Declaration}

theorem map_startLine_filter (merged : List Declaration) (x : Declaration) :
    (merged.filter fun d => d.same x).map startLine =
      ((merged.map signature).filter fun s =>
        s.1 == x.kind && s.2.1 == x.name && s.2.2.1 ≤ x.endLine && x.startLine ≤ s.2.2.2).map fun s => s.2.2.1 := by
  rw [List.filter_map, List.map_map]
  rfl

/-- A list with the shape of a scan can receive anything. -/
theorem ScanShaped.receives (h : ScanShaped merged) (x : Declaration) : Receives merged x := by
  induction x using children_induction generalizing merged with
  | step x ih =>
    constructor
    · exact List.pairwise_map.2 (h.pairwise_startLine_lt.filter _)
    · exact fun d hd _ child hchild => ih child hchild (h.framed hd).shaped

/-- Putting `y` in keeps the ranks of those that could absorb `x`. -/
theorem ranked_place (hapart : y = x ∨ y.Apart x)
    (hranked : ((merged.filter fun d => d.same x).map startLine).Pairwise (· < ·)) :
    (((place merged y).filter fun d => d.same x).map startLine).Pairwise (· < ·) := by
  by_cases hsome : ∃ old ∈ merged, old.same y = true
  · rwa [map_startLine_filter, map_signature_place hsome, ← map_startLine_filter]
  · have hnone : ∀ old ∈ merged, old.same y = false := by
      intro old hold
      exact Bool.eq_false_iff.2 fun hsame => hsome ⟨old, hold, hsame⟩
    rw [place_of_none hnone, List.filter_append]
    rcases hapart with rfl | hapart
    · rw [List.filter_eq_nil_iff.2 fun old hold => by simp [hnone old hold], List.nil_append]
      exact List.pairwise_map.2 ((List.pairwise_singleton _ y).filter _)
    · rw [List.filter_cons_of_neg (by simp [same_eq_false_of_apart hapart]), List.filter_nil, List.append_nil]
      exact hranked

/-- A list that can receive `x` still can after `x` itself, or something without a line in common with it, was
put in. -/
theorem Receives.place (h : Receives merged x) (hx : x.Framed) (hy : y.Framed) (hapart : y = x ∨ y.Apart x) :
    Receives (place merged y) x := by
  induction x using children_induction generalizing merged y with
  | step x ih =>
    obtain ⟨ranked, inside⟩ := h
    refine ⟨ranked_place hapart ranked, fun d hd hsame child hchild => ?_⟩
    rcases mem_place hd with hd | ⟨target, htarget, _, rfl⟩ | ⟨_, rfl⟩
    · exact inside d hd hsame child hchild
    · -- the children of `y` are `child` itself or have no line in common with it
      have hstart := inside target htarget hsame child hchild
      rw [absorb, merge_eq]
      refine Receives.sorted (foldl_place_induction (motive := fun ds => Receives ds child) _
        (fun other hother merged h => ?_) hstart)
      have hother := List.mem_of_mem_filter hother
      refine ih child hchild h (hx.shaped.framed hchild) (hy.shaped.framed hother) ?_
      rcases hapart with rfl | hapart
      · exact hx.shaped.eq_or_apart hother hchild
      · exact .inr (hapart.inside hy hx hother hchild)
    · rcases hapart with rfl | hapart
      · exact hx.shaped.receives child
      · rw [same_eq_false_of_apart hapart] at hsame
        cases hsame

end Receiving

section Holding

variable {merged others : List Declaration} {x y target child : Declaration}

/-- A declaration that lets a child in after it has absorbed another did so before, or one that came with the
other is the same. -/
theorem admits_of_admits_absorb (h : (target.absorb y).admits child = true) :
    target.admits child = true ∨ ∃ other ∈ y.children, target.admits other = true ∧ other.same child = true := by
  rcases Bool.or_eq_true_iff.1 h with hinside | hsame
  · exact .inl (Bool.or_eq_true_iff.2 (.inl hinside))
  obtain ⟨d, hd, hsame⟩ := List.any_eq_true.1 hsame
  have horigin : ∀ d ∈ (y.children.filter target.admits).foldl place target.children,
      ∃ d' ∈ target.children ++ y.children.filter target.admits, d'.signature = d.signature := by
    refine foldl_place_induction (motive := fun ds => ∀ d ∈ ds,
      ∃ d' ∈ target.children ++ y.children.filter target.admits, d'.signature = d.signature) _
      (fun other hother ds hds d hd => ?_) (fun d hd => ⟨d, List.mem_append_left _ hd, rfl⟩)
    rcases mem_place hd with hd | ⟨absorber, habsorber, _, rfl⟩ | ⟨_, rfl⟩
    · exact hds d hd
    · exact hds absorber habsorber
    · exact ⟨d, List.mem_append_right _ hother, rfl⟩
  obtain ⟨d', hd', hsignature⟩ := horigin d (mem_merge.1 hd)
  rw [← same_congr hsignature] at hsame
  rcases List.mem_append.1 hd' with hold | hnew
  · exact .inl (Bool.or_eq_true_iff.2 (.inr (List.any_eq_true.2 ⟨d', hold, hsame⟩)))
  · obtain ⟨hmem, hadmits⟩ := List.mem_filter.1 hnew
    exact .inr ⟨d', hmem, hadmits, hsame⟩

/-- A list with the shape of a scan holds what is in it. -/
theorem ScanShaped.holds (h : ScanShaped merged) (hmem : x ∈ merged) : Holds merged x := by
  induction x using children_induction generalizing merged with
  | step x ih =>
    have hx := h.framed hmem
    have hself : x.same x = true := same_iff.2 ⟨rfl, rfl, hx.ranged, hx.ranged⟩
    refine .intro ?_ (Entry.fill_self _) hx.shaped.sorted_eq fun child hchild _ => ih child hchild hx.shaped hchild
    cases hfound : merged.find? fun d => d.same x with
    | none => exact absurd hself (List.find?_eq_none.1 hfound x hmem)
    | some found =>
      rcases h.eq_or_apart (List.mem_of_find?_eq_some hfound) hmem with rfl | hapart
      · rfl
      · have hsame := same_of_find? hfound
        rw [same_eq_false_of_apart hapart] at hsame
        cases hsame

/-- A list that holds `x` still does after something without a line in common with it was put in. -/
theorem Holds.place (h : Holds merged x) (hreceives : Receives merged x) (hx : x.Framed) (hy : y.Framed)
    (hapart : y.Apart x) : Holds (place merged y) x := by
  induction x using children_induction generalizing merged y with
  | step x ih =>
    obtain @⟨_, _, target, first, filled, ordered, inside⟩ := h
    obtain ⟨_, received⟩ := hreceives
    have hreceived := received target (List.mem_of_find?_eq_some first) (same_of_find? first)
    obtain ⟨found, hfound, rfl | ⟨_, rfl⟩⟩ := find?_place first y
    · exact .intro hfound filled ordered inside
    refine .intro hfound (Entry.fill_fill_of_fill_eq_self filled) (sorted_merge _ _) ?_
    intro child hchild hadmits
    have hbefore : target.admits child = true := by
      rcases admits_of_admits_absorb hadmits with hbefore | ⟨other, hother, _, hsame⟩
      · exact hbefore
      · rw [same_eq_false_of_apart (hapart.inside hy hx hother hchild)] at hsame
        cases hsame
    -- `child` is held only together with the ranks that let it be found again, so both go through the list
    have hboth : Holds ((y.children.filter target.admits).foldl Declaration.place target.children) child ∧
        Receives ((y.children.filter target.admits).foldl Declaration.place target.children) child := by
      refine foldl_place_induction (motive := fun ds => Holds ds child ∧ Receives ds child) _
        (fun other hother ds hds => ?_) ⟨inside child hchild hbefore, hreceived child hchild⟩
      have hother := List.mem_of_mem_filter hother
      have hframed := hx.shaped.framed hchild
      have hapart := hapart.inside hy hx hother hchild
      exact ⟨ih child hchild hds.1 hds.2 hframed (hy.shaped.framed hother) hapart,
        hds.2.place hframed (hy.shaped.framed hother) (.inr hapart)⟩
    rw [absorb, merge_eq]
    exact hboth.1.sorted hboth.2

/-- A list holds all that was merged into it, if it holds each declaration right after that was put in. -/
theorem holds_merge_of_holds_place (hframed : ∀ other ∈ others, other.Framed) (hapart : others.Pairwise Apart)
    (hreceives : ∀ other ∈ others, Receives merged other)
    (hself : ∀ other ∈ others, ∀ ds, Receives ds other → Holds (Declaration.place ds other) other) :
    ∀ other ∈ others, Holds (merge merged others) other := by
  intro other hmem
  obtain ⟨earlier, later, rfl⟩ := List.append_of_mem hmem
  obtain ⟨_, hlater, hearlier⟩ := List.pairwise_append.1 hapart
  have hother := hframed other hmem
  rw [merge_eq, List.foldl_append, List.foldl_cons]
  have hbefore : Receives (earlier.foldl Declaration.place merged) other := by
    refine foldl_place_induction (motive := fun ds => Receives ds other) earlier (fun before hbefore ds hds => ?_)
      (hreceives other hmem)
    refine hds.place hother (hframed before (List.mem_append_left _ hbefore)) (.inr ?_)
    exact hearlier before hbefore other List.mem_cons_self
  have hstart := And.intro (hself other hmem _ hbefore) (hbefore.place hother hother (.inl rfl))
  have hafter := foldl_place_induction (motive := fun ds => Holds ds other ∧ Receives ds other) later
    (fun after hafter ds hds => ?_) hstart
  · exact hafter.1.sorted hafter.2
  · have hapart := ((List.pairwise_cons.1 hlater).1 after hafter).symm
    have hafter := hframed after (List.mem_append_right _ (List.mem_cons_of_mem _ hafter))
    exact ⟨hds.1.place hds.2 hother hafter hapart, hds.2.place hother hafter (.inr hapart)⟩

theorem holds_place (hreceives : Receives merged x) (hx : x.Framed) : Holds (Declaration.place merged x) x := by
  induction x using children_induction generalizing merged with
  | step x ih =>
    have hself : x.same x = true := same_iff.2 ⟨rfl, rfl, hx.ranged, hx.ranged⟩
    cases hfirst : merged.find? fun d => d.same x with
    | none =>
      rw [Declaration.place_eq, updateFirst_of_find?_eq_none hfirst]
      refine .intro ?_ (Entry.fill_self _) hx.shaped.sorted_eq fun child hchild _ => hx.shaped.holds hchild
      rw [List.find?_append, hfirst, Option.none_or, List.find?_cons, hself]
    | some target =>
      obtain ⟨_, received⟩ := hreceives
      have hreceived := received target (List.mem_of_find?_eq_some hfirst) (same_of_find? hfirst)
      refine .intro (find?_place_self hfirst) (Entry.fill_fill _ _) (sorted_merge _ _) ?_
      intro child hchild hadmits
      have hbefore : target.admits child = true := by
        rcases admits_of_admits_absorb hadmits with hbefore | ⟨other, hother, hadmitted, hsame⟩
        · exact hbefore
        · rcases hx.shaped.eq_or_apart hother hchild with rfl | hapart
          · exact hadmitted
          · rw [same_eq_false_of_apart hapart] at hsame
            cases hsame
      refine holds_merge_of_holds_place ?_ (hx.shaped.apart.filter _) ?_ ?_ child (List.mem_filter.2 ⟨hchild, hbefore⟩)
      · exact fun other hother => hx.shaped.framed (List.mem_of_mem_filter hother)
      · exact fun other hother => hreceived other (List.mem_of_mem_filter hother)
      · intro other hother ds hds
        have hother := List.mem_of_mem_filter hother
        exact ih other hother hds (hx.shaped.framed hother)

end Holding

/-- Merging an outline a second time changes nothing, if both outlines have the shape that scans give. The first
declaration that could absorb a given one is the same before and after sorting, and two secondary declarations that
share no line never change what the other one finds. -/
theorem merge_merge_self {primary secondary : List Declaration} (hprimary : ScanShaped primary)
    (hsecondary : ScanShaped secondary) :
    merge (merge primary secondary) secondary = merge primary secondary := by
  have hholds : ∀ other ∈ secondary, Holds (merge primary secondary) other := by
    refine holds_merge_of_holds_place (fun _ => hsecondary.framed) hsecondary.apart ?_ ?_
    · exact fun other _ => hprimary.receives other
    · exact fun other hmem ds hds => holds_place hds (hsecondary.framed hmem)
  exact merge_eq_self (fun other hmem => (hholds other hmem).place_eq) (sorted_merge _ _)

/-- A class that another outline takes for two classes of its name. Of the methods there the first `f` is absorbed,
the second is added, and `g` lies outside. -/
def wholeClass : List Declaration :=
  [⟨⟨.classType, "A", 1, 9, .empty, none⟩, [⟨⟨.method, "f", 2, 4, .empty, none⟩, []⟩]⟩]

def splitClass : List Declaration :=
  [⟨⟨.classType, "A", 1, 5, .ofList ["pub"], none⟩, [⟨⟨.method, "f", 3, 5, .empty, some "F."⟩, []⟩]⟩,
    ⟨⟨.classType, "A", 6, 20, .empty, some "A."⟩, [⟨⟨.method, "f", 7, 8, .empty, none⟩, []⟩,
      ⟨⟨.method, "g", 10, 12, .empty, none⟩, []⟩]⟩]

theorem merge_merge_self_classes :
    ScanShaped wholeClass ∧ ScanShaped splitClass ∧
      (walkAll (merge wholeClass splitClass)).map entry =
        [⟨.classType, "A", 1, 9, .ofList ["pub"], some "A."⟩, ⟨.method, "f", 2, 4, .empty, some "F."⟩,
          ⟨.method, "f", 7, 8, .empty, none⟩] ∧
      merge (merge wholeClass splitClass) splitClass = merge wholeClass splitClass := by
  have hwhole : ScanShaped wholeClass :=
    ⟨by decide, by decide, by decide, by decide, by decide, by unfold Contained; decide⟩
  have hsplit : ScanShaped splitClass :=
    ⟨by decide, by decide, by decide, by decide, by decide, by unfold Contained; decide⟩
  refine ⟨hwhole, hsplit, ?_, merge_merge_self hwhole hsplit⟩
  simp (disch := decide) [merge, sorted_of_pairwise, wholeClass, splitClass, placeAll, place, updateFirst, same,
    admits, contains, kind, name, startLine, endLine, walkAll, walk, Entry.fill, Modifiers.union, Modifiers.insertAll,
    Modifiers.empty, Modifiers.ofList, Modifiers.insert, insertWord]

end Outline.Declaration
