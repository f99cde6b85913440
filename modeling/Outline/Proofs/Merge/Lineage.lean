import Mathlib.Data.List.Forall2
import Mathlib.Tactic.Choose
import Outline.Proofs.Merge.Placing

namespace Outline

/-- Two declarations match if their kinds and names agree and their lines overlap. -/
def Declaration.Matches (d other : Declaration) : Prop :=
  d.kind = other.kind ∧ d.name = other.name ∧ d.startLine ≤ other.endLine ∧ other.startLine ≤ d.endLine

instance (d other : Declaration) : Decidable (d.Matches other) :=
  inferInstanceAs (Decidable (_ ∧ _ ∧ _ ∧ _))

/-- A declaration as it came into a list, with those that it has absorbed there, in order. -/
structure Lineage where
  /-- The place of the origin in the list that was merged into; one that came later has none. -/
  seat? : Option Nat
  origin : Declaration
  absorbed : List Declaration

namespace Lineage

/-- The lineages of a list before anything is merged into it. -/
def founders (declarations : List Declaration) : List Lineage :=
  declarations.mapIdx fun seat d => ⟨some seat, d, []⟩

/-- A declaration joins the first lineage whose origin it matches, or begins its own. -/
def enter (roster : List Lineage) (other : Declaration) : List Lineage :=
  updateFirst (fun lineage => decide (lineage.origin.Matches other))
    (fun lineage => ⟨lineage.seat?, lineage.origin, lineage.absorbed ++ [other]⟩) ⟨none, other, []⟩ roster

/-- The lineages after all of a list have entered, in merged order. -/
def enterAll (roster : List Lineage) (others : List Declaration) : List Lineage :=
  (others.foldl enter roster).mergeSort fun a b => a.origin.before b.origin

/-- The lineages among the children of a declaration that has absorbed others. The children of each of these have
entered in turn, except those that lie outside and match none. -/
def inside (parent : Declaration) (absorbed : List Declaration) : List Lineage :=
  absorbed.foldl
    (fun roster other => enterAll roster (other.children.filter fun child =>
      parent.contains child || roster.any fun lineage => decide (lineage.origin.Matches child)))
    (founders parent.children)

/-- What the declaration with that seat has absorbed. -/
def absorbedAt (roster : List Lineage) (seat : Nat) : List Declaration :=
  (roster.find? fun lineage => lineage.seat? == some seat).elim [] absorbed

end Lineage

open Lineage

namespace Declaration

/-- The image of a primary declaration that has absorbed others. It has the same kind, name and lines, its own
documentation or else the first among the absorbed, its own modifiers and theirs; and each child has an image of
its own among the children, for what it has absorbed of theirs. -/
inductive Kept : (absorbed : List Declaration) → (primary image : Declaration) → Prop where
  | intro {absorbed : List Declaration} {primary image : Declaration} (kind_eq : image.kind = primary.kind)
      (name_eq : image.name = primary.name) (startLine_eq : image.startLine = primary.startLine)
      (endLine_eq : image.endLine = primary.endLine)
      (docstring_eq : image.docstring = primary.docstring.or (absorbed.findSome? docstring))
      (mem_modifiers_iff : ∀ word, word ∈ image.modifiers.words ↔
        word ∈ primary.modifiers.words ∨ ∃ other ∈ absorbed, word ∈ other.modifiers.words)
      (index : Fin primary.children.length → Fin image.children.length) (injective : Function.Injective index)
      (children : ∀ i : Fin primary.children.length,
        Kept (absorbedAt (inside primary absorbed) i) primary.children[i] image.children[index i]) :
      Kept absorbed primary image

/-- The secondary declarations that match nothing in the list at their turn. -/
def unmatched (merged : List Declaration) : List Declaration → List Declaration
  | [] => []
  | other :: rest =>
    if merged.any fun d => decide (d.Matches other) then unmatched (place merged other) rest
    else other :: unmatched (place merged other) rest

end Declaration

namespace Lineage

open Declaration

/-- What a lineage has come to, with all that has come along inside. -/
inductive Becomes : Lineage → Declaration → Prop where
  | intro {lineage : Lineage} {d : Declaration} (signature_eq : d.signature = lineage.origin.signature)
      (docstring_eq : d.docstring = lineage.origin.docstring.or (lineage.absorbed.findSome? docstring))
      (mem_modifiers_iff : ∀ word, word ∈ d.modifiers.words ↔
        word ∈ lineage.origin.modifiers.words ∨ ∃ other ∈ lineage.absorbed, word ∈ other.modifiers.words)
      (children : List.Forall₂ Becomes (inside lineage.origin lineage.absorbed) d.children) : Becomes lineage d

variable {roster : List Lineage} {lineage : Lineage} {merged : List Declaration} {d other : Declaration}

@[simp]
theorem decide_matches (d other : Declaration) : decide (d.Matches other) = d.same other :=
  Bool.eq_iff_iff.2 (decide_eq_true_iff.trans same_iff.symm)

theorem Becomes.signature_eq (h : Becomes lineage d) : d.signature = lineage.origin.signature := by
  obtain ⟨hsignature, _, _, _⟩ := h
  exact hsignature

section Alignment

/-- Sorting keeps two lists aligned, if the orders agree on what corresponds. -/
theorem forall₂_mergeSort {α β : Type} {R : α → β → Prop} {le : α → α → Bool} {le' : β → β → Bool}
    {items : List α} {others : List β} (h : List.Forall₂ R items others)
    (hle : ∀ a b a' b', R a a' → R b b' → le a b = le' a' b') :
    List.Forall₂ R (items.mergeSort le) (others.mergeSort le') := by
  have hlength := h.length_eq
  have hpairs : ∀ pair ∈ items.zip others, R pair.1 pair.2 := fun pair hmem => List.forall₂_zip h hmem
  have hfst : ((items.zip others).mergeSort fun x y => le x.1 y.1).map Prod.fst = items.mergeSort le := by
    rw [List.map_mergeSort (f := Prod.fst) (s := le) (fun _ _ _ _ => rfl), List.map_fst_zip (Nat.le_of_eq hlength)]
  have hsnd : ((items.zip others).mergeSort fun x y => le x.1 y.1).map Prod.snd = others.mergeSort le' := by
    rw [List.map_mergeSort (f := Prod.snd) (s := le') fun a ha b hb => hle _ _ _ _ (hpairs a ha) (hpairs b hb),
      List.map_snd_zip (Nat.le_of_eq hlength.symm)]
  rw [← hfst, ← hsnd, List.forall₂_map_left_iff, List.forall₂_map_right_iff, List.forall₂_same]
  exact fun pair hmem => hpairs pair (List.mem_mergeSort.1 hmem)

theorem any_origin_same (h : List.Forall₂ Becomes roster merged) (child : Declaration) :
    (roster.any fun lineage => decide (lineage.origin.Matches child)) = merged.any fun d => d.same child := by
  induction h with
  | nil => rfl
  | cons hfirst _ ih => rw [List.any_cons, List.any_cons, ih, decide_matches, same_congr hfirst.signature_eq]

theorem forall₂_enter (h : List.Forall₂ Becomes roster merged)
    (habsorb : ∀ lineage d, Becomes lineage d →
      Becomes ⟨lineage.seat?, lineage.origin, lineage.absorbed ++ [other]⟩ (d.absorb other))
    (hfresh : Becomes ⟨none, other, []⟩ other) : List.Forall₂ Becomes (enter roster other) (place merged other) := by
  rw [enter, place_eq]
  induction h with
  | nil => exact .cons hfresh .nil
  | @cons lineage d roster merged hfirst hrest ih =>
    rw [updateFirst, updateFirst, decide_matches, same_congr hfirst.signature_eq]
    split
    · exact .cons (habsorb lineage d hfirst) hrest
    · exact .cons hfirst ih

theorem forall₂_founders {declarations : List Declaration}
    (h : ∀ d ∈ declarations, ∀ seat, Becomes ⟨seat, d, []⟩ d) :
    List.Forall₂ Becomes (founders declarations) declarations := by
  rw [List.forall₂_iff_get]
  refine ⟨by simp [founders], fun i _ hi => ?_⟩
  simp only [founders, List.get_eq_getElem, List.getElem_mapIdx]
  exact h _ (List.getElem_mem hi) _

theorem becomes_self (d : Declaration) (seat : Option Nat) : Becomes ⟨seat, d, []⟩ d := by
  induction d using children_induction generalizing seat with
  | step d ih => exact .intro rfl (by simp) (by simp) (forall₂_founders ih)

theorem forall₂_enterAll {others : List Declaration} (h : List.Forall₂ Becomes roster merged)
    (habsorb : ∀ other ∈ others, ∀ lineage d, Becomes lineage d →
      Becomes ⟨lineage.seat?, lineage.origin, lineage.absorbed ++ [other]⟩ (d.absorb other)) :
    List.Forall₂ Becomes (enterAll roster others) (merge merged others) := by
  have hentered : List.Forall₂ Becomes (others.foldl enter roster) (others.foldl place merged) := by
    induction others generalizing roster merged with
    | nil => exact h
    | cons other rest ih =>
      have hfirst := forall₂_enter h (habsorb other List.mem_cons_self) (becomes_self other none)
      exact ih hfirst fun next hnext => habsorb next (List.mem_cons_of_mem _ hnext)
  rw [enterAll, merge_eq, Declaration.sorted]
  refine forall₂_mergeSort hentered ?_
  intro a b a' b' ha hb
  exact before_congr ha.signature_eq.symm hb.signature_eq.symm

theorem Becomes.absorb (h : Becomes lineage d) (other : Declaration) :
    Becomes ⟨lineage.seat?, lineage.origin, lineage.absorbed ++ [other]⟩ (d.absorb other) := by
  -- on what is absorbed: its children are what enters one level down
  induction other using children_induction generalizing lineage d with
  | step other ih =>
    obtain ⟨hsignature, hdocstring, hmodifiers, hchildren⟩ := h
    constructor
    · exact hsignature
    · change d.docstring.or other.docstring = _
      rw [hdocstring, Option.or_assoc, List.findSome?_append, List.findSome?_singleton]
    · intro word
      change word ∈ (d.modifiers.union other.modifiers).words ↔ _
      rw [Modifiers.mem_union, hmodifiers, or_assoc]
      simp [or_and_right, exists_or]
    · -- whether a child is let in is seen from the origins
      have hadmits : (fun child => lineage.origin.contains child ||
          (inside lineage.origin lineage.absorbed).any fun lineage =>
            decide (lineage.origin.Matches child)) = d.admits := by
        funext child
        rw [admits, any_origin_same hchildren, contains_congr hsignature]
      rw [inside, List.foldl_append, List.foldl_cons, List.foldl_nil, ← inside, hadmits, Declaration.absorb]
      refine forall₂_enterAll hchildren fun child hchild lineage d h => ?_
      exact ih child (List.mem_of_mem_filter hchild) h

end Alignment

section Seats

/-- Every place of the list has a lineage, and a lineage with a place begins with the declaration there. -/
structure Seated (declarations : List Declaration) (roster : List Lineage) : Prop where
  taken : ∀ seat < declarations.length, ∃ lineage ∈ roster, lineage.seat? = some seat
  origin_eq : ∀ lineage ∈ roster, ∀ seat, lineage.seat? = some seat → declarations[seat]? = some lineage.origin

variable {declarations : List Declaration}

theorem seated_founders (declarations : List Declaration) : Seated declarations (founders declarations) := by
  constructor
  · intro seat hseat
    exact ⟨_, List.mem_mapIdx.2 ⟨seat, hseat, rfl⟩, rfl⟩
  · intro lineage hmem seat hseat
    obtain ⟨place, hplace, rfl⟩ := List.mem_mapIdx.1 hmem
    obtain rfl := Option.some.inj hseat
    exact List.getElem?_eq_getElem hplace

theorem Seated.enter (h : Seated declarations roster) (other : Declaration) :
    Seated declarations (enter roster other) := by
  constructor
  · intro seat hseat
    obtain ⟨lineage, hmem, hlineage⟩ := h.taken seat hseat
    rw [← hlineage, Lineage.enter]
    refine exists_mem_updateFirst (f := seat?) ?_ hmem
    exact fun _ => rfl
  · intro lineage hmem seat hseat
    rcases mem_updateFirst hmem with hold | ⟨old, hold, _, rfl⟩ | ⟨_, rfl⟩
    · exact h.origin_eq lineage hold seat hseat
    · exact h.origin_eq old hold seat hseat
    · cases hseat

theorem Seated.enterAll (h : Seated declarations roster) (others : List Declaration) :
    Seated declarations (enterAll roster others) := by
  have hentered : Seated declarations (others.foldl Lineage.enter roster) := by
    induction others generalizing roster with
    | nil => exact h
    | cons other rest ih => exact ih (h.enter other)
  constructor
  · intro seat hseat
    obtain ⟨lineage, hmem, hlineage⟩ := hentered.taken seat hseat
    exact ⟨lineage, List.mem_mergeSort.2 hmem, hlineage⟩
  · intro lineage hmem
    exact hentered.origin_eq lineage (List.mem_mergeSort.1 hmem)

theorem seated_inside (parent : Declaration) (absorbed : List Declaration) :
    Seated parent.children (inside parent absorbed) := by
  suffices h : ∀ roster, Seated parent.children roster → Seated parent.children (absorbed.foldl
      (fun roster other => enterAll roster (other.children.filter fun child =>
        parent.contains child || roster.any fun lineage => decide (lineage.origin.Matches child))) roster) from
    h _ (seated_founders _)
  induction absorbed with
  | nil => exact fun _ h => h
  | cons other rest ih => exact fun roster h => ih _ (h.enterAll _)

theorem Seated.exists_getElem (h : Seated declarations roster) (i : Fin declarations.length) :
    ∃ k : Fin roster.length,
      roster[k].seat? = some i.1 ∧ roster[k].origin = declarations[i] ∧ roster[k].absorbed = absorbedAt roster i := by
  obtain ⟨holder, hholder, hseat⟩ := h.taken i i.2
  cases hfind : roster.find? fun lineage => lineage.seat? == some i.1 with
  | none => simpa [hseat] using List.find?_eq_none.1 hfind holder hholder
  | some lineage =>
    have hlineage : lineage.seat? = some i.1 := by simpa using List.find?_some hfind
    obtain ⟨k, hk, rfl⟩ := List.getElem_of_mem (List.mem_of_find?_eq_some hfind)
    refine ⟨⟨k, hk⟩, hlineage, ?_, ?_⟩
    · have horigin := h.origin_eq _ (List.getElem_mem hk) i hlineage
      rw [List.getElem?_eq_getElem i.2] at horigin
      exact (Option.some.inj horigin).symm
    · rw [absorbedAt, hfind]
      rfl

/-- Where each lineage has come to something, the declarations of the list have images, no two the same one. -/
theorem Seated.exists_images (h : Seated declarations roster) (hbecomes : List.Forall₂ Becomes roster merged)
    (hkept : ∀ d ∈ merged, ∀ lineage, Becomes lineage d → Kept lineage.absorbed lineage.origin d) :
    ∃ index : Fin declarations.length → Fin merged.length, Function.Injective index ∧
      ∀ i : Fin declarations.length, Kept (absorbedAt roster i) declarations[i] merged[index i] := by
  choose index hseat horigin habsorbed using h.exists_getElem
  have hlength := hbecomes.length_eq
  refine ⟨fun i => (index i).cast hlength, fun i j hij => ?_, fun i => ?_⟩
  · -- the seat tells two images apart
    have hindex : index i = index j := by simpa [Fin.ext_iff] using hij
    have hseats : some i.1 = some j.1 := by rw [← hseat i, ← hseat j, hindex]
    exact Fin.ext (Option.some.inj hseats)
  · rw [← habsorbed i, ← horigin i]
    refine hkept _ (List.getElem_mem _) _ ?_
    exact hbecomes.get (index i).2 _

end Seats

theorem Becomes.kept (h : Becomes lineage d) : Kept lineage.absorbed lineage.origin d := by
  induction d using children_induction generalizing lineage with
  | step d ih =>
    obtain ⟨hsignature, hdocstring, hmodifiers, hchildren⟩ := h
    simp only [signature, Prod.mk.injEq] at hsignature
    obtain ⟨hkind, hname, hstart, hend⟩ := hsignature
    obtain ⟨index, hinjective, himages⟩ :=
      (seated_inside lineage.origin lineage.absorbed).exists_images hchildren fun child hchild _ h => ih child hchild h
    exact .intro hkind hname hstart hend hdocstring hmodifiers index hinjective himages

end Lineage

namespace Declaration

theorem length_foldl_place (merged secondary : List Declaration) :
    (secondary.foldl place merged).length = merged.length + (unmatched merged secondary).length := by
  induction secondary generalizing merged with
  | nil => rfl
  | cons other rest ih =>
    rw [List.foldl_cons, ih, unmatched]
    simp only [decide_matches]
    cases hany : merged.any fun d => d.same other with
    | true =>
      have hlength := congrArg List.length (map_signature_place (List.any_eq_true.1 hany))
      rw [List.length_map, List.length_map] at hlength
      rw [hlength, if_pos rfl]
    | false =>
      rw [if_neg Bool.false_ne_true, place_of_none (by simpa using hany), List.length_append, List.length_cons,
        List.length_cons, List.length_nil]
      omega

/-- What is put into a list is matched there, unless its last line is above its first. -/
theorem exists_same_place (merged : List Declaration) {other : Declaration} (hlines : other.startLine ≤ other.endLine) :
    ∃ d ∈ place merged other, d.same other = true := by
  cases hfind : merged.find? fun d => d.same other with
  | none =>
    have hnone : ∀ old ∈ merged, old.same other = false := by simpa using hfind
    rw [place_of_none hnone]
    exact ⟨other, by simp, same_iff.2 ⟨rfl, rfl, hlines, hlines⟩⟩
  | some target =>
    have hplace := find?_place_self hfind
    exact ⟨_, List.mem_of_find?_eq_some hplace, same_of_find? hplace⟩

theorem exists_same_merge {primary secondary : List Declaration} {other : Declaration} (hmem : other ∈ secondary)
    (hlines : other.startLine ≤ other.endLine) : ∃ d ∈ merge primary secondary, d.same other = true := by
  obtain ⟨earlier, later, rfl⟩ := List.append_of_mem hmem
  simp only [mem_merge, List.foldl_append, List.foldl_cons]
  refine foldl_place_induction (motive := fun merged => ∃ d ∈ merged, d.same other = true) later ?_
    (exists_same_place _ hlines)
  rintro next _ merged ⟨d, hd, hsame⟩
  obtain ⟨d', hd', hsignature⟩ := exists_signature_of_mem hd next
  exact ⟨d', hd', by rw [same_congr hsignature, hsame]⟩

/-- A list holds all of two outlines. It is in order and has no more declarations than it needs, every primary
declaration has an image of its own, and every secondary one overlaps with a declaration that it may count as. -/
structure Reconciled (primary secondary merged : List Declaration) : Prop where
  ordered : merged.Pairwise fun a b => a.startLine < b.startLine ∨ a.startLine = b.startLine ∧ a.name ≤ b.name
  length_eq : merged.length = primary.length + (unmatched primary secondary).length
  kept : ∃ index : Fin primary.length → Fin merged.length, Function.Injective index ∧
    ∀ i : Fin primary.length, Kept (absorbedAt (enterAll (founders primary) secondary) i) primary[i] merged[index i]
  covered : ∀ other ∈ secondary, other.startLine ≤ other.endLine → ∃ d ∈ merged, d.Matches other

/-- A merge loses nothing of the primary outline and covers the secondary one. Nothing is assumed of the two
lists: lines may be in any order, siblings may overlap, and names may be repeated. -/
theorem merge_reconciled (primary secondary : List Declaration) :
    Reconciled primary secondary (merge primary secondary) := by
  have hordered : (merge primary secondary).Pairwise fun a b => a.before b = true := by
    rw [merge_eq]
    exact pairwise_sorted _
  have hlength : (merge primary secondary).length = primary.length + (unmatched primary secondary).length := by
    rw [merge_eq, (sorted_perm _).length_eq, length_foldl_place]
  have hbecomes : List.Forall₂ Becomes (enterAll (founders primary) secondary) (merge primary secondary) :=
    forall₂_enterAll (forall₂_founders fun d _ seat => becomes_self d seat) fun other _ _ _ h => h.absorb other
  refine ⟨hordered.imp before_iff.1, hlength, ?_, ?_⟩
  · exact ((seated_founders primary).enterAll secondary).exists_images hbecomes fun _ _ _ h => h.kept
  · intro other hmem hlines
    obtain ⟨d, hd, hsame⟩ := exists_same_merge hmem hlines
    exact ⟨d, hd, same_iff.1 hsame⟩

/-- A class absorbs one of its name that overlaps with it, with the documentation and the method inside; what
stands below both is appended. -/
example :
    (merge [⟨⟨.classType, "A", 2, 5, .empty, none⟩, []⟩]
      [⟨⟨.function, "f", 9, 9, .empty, none⟩, []⟩,
        ⟨⟨.classType, "A", 1, 7, .empty, some "doc"⟩, [⟨⟨.method, "m", 3, 4, .empty, none⟩, []⟩]⟩]).map
        (fun d => (d.name, d.startLine, d.endLine, d.docstring, d.children.map name)) =
      [("A", 2, 5, some "doc", ["m"]), ("f", 9, 9, none, [])] := by
  cbv

end Declaration

end Outline
