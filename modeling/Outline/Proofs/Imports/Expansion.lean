import Outline.Proofs.Imports.UseTree

namespace Outline

namespace Imports

open Text

variable {separator path tree head inside piece name t : Text} {c : Char}

section Parts

theorem sublist_of_mem_splitTopLevel {depth : Int} (hpiece : piece ∈ splitTopLevel depth t) : piece.Sublist t := by
  induction t generalizing depth piece with
  | nil =>
    obtain rfl := List.mem_singleton.1 hpiece
    exact List.Sublist.refl _
  | cons d t ih =>
    by_cases hend : d = ',' ∧ depth = 0
    · have hcond : (decide (d = ',') && depth == 0) = true := by simpa using hend
      rw [splitTopLevel, if_pos hcond] at hpiece
      rcases List.mem_cons.1 hpiece with rfl | hpiece
      · exact List.nil_sublist _
      · exact (ih hpiece).cons d
    · have hgoes : d ≠ ',' ∨ depth ≠ 0 := Decidable.not_and_iff_or_not.1 hend
      rw [UseTree.splitTopLevel_cons hgoes] at hpiece
      generalize (if d = '{' then depth + 1 else if d = '}' then depth - 1 else depth) = inner at hpiece
      obtain ⟨first, pieces, hpieces⟩ := List.exists_cons_of_ne_nil (UseTree.splitTopLevel_ne_nil inner t)
      rw [hpieces, List.modifyHead_cons] at hpiece
      rcases List.mem_cons.1 hpiece with rfl | hpiece
      · exact (ih (hpieces ▸ List.mem_cons_self)).cons_cons d
      · exact (ih (hpieces ▸ List.mem_cons_of_mem _ hpiece)).cons d

theorem exists_of_outerBraces? (hbraces : outerBraces? tree = some (head, some inside)) :
    ∃ tail, tree = head ++ '{' :: (inside ++ '}' :: tail) := by
  unfold outerBraces? at hbraces
  split at hbraces
  · contradiction
  · next before rest hopen =>
    split at hbraces
    · next after shown hclose =>
      obtain ⟨rfl, rfl⟩ : before = head ∧ shown.reverse = inside := by simpa using hbraces
      have hrest := congrArg List.reverse (eq_of_cut?_eq_some hclose)
      refine ⟨after.reverse, ?_⟩
      rw [eq_of_cut?_eq_some hopen, ← List.reverse_reverse rest, hrest]
      simp
    · simp at hbraces

theorem not_mem_of_outerBraces? (hbraces : outerBraces? tree = none) : '{' ∉ tree := by
  intro hmem
  obtain ⟨before, after, rfl, hbefore⟩ := List.eq_append_cons_of_mem hmem
  rw [outerBraces?, cut?_append_cons hbefore] at hbraces
  dsimp only at hbraces
  split at hbraces
  · contradiction
  · contradiction

theorem upTo_isPrefix (separator t : Text) : upTo separator t <+: t := by
  rw [upTo]
  cases hcut : cut? separator t with
  | none => exact List.prefix_rfl
  | some parts =>
    rw [eq_of_cut?_eq_some hcut, List.append_assoc]
    exact List.prefix_append _ _

end Parts

section Names

/-- A name in the expansion of a tree is one of a piece between braces, or the tree has none and the name is made of a
part of it. -/
theorem mem_expandTree_cases (hname : name ∈ expandTree separator path tree) :
    (∃ head inside tail, trim tree = head ++ '{' :: (inside ++ '}' :: tail) ∧
      ∃ piece ∈ splitTopLevel 0 inside, name ∈ expandTree separator (joinPath separator path head) piece) ∨
    ('{' ∉ trim tree ∧ (name = path ∨ ∃ leaf, leaf.Sublist (trim tree) ∧ name = joinPath separator path leaf)) := by
  rw [expandTree] at hname
  dsimp only at hname
  split at hname
  · contradiction
  · split at hname
    · next head inside hbraces =>
      obtain ⟨tail, htail⟩ := exists_of_outerBraces? hbraces
      obtain ⟨⟨piece, hpiece⟩, -, hname⟩ := List.mem_flatMap.1 hname
      exact .inl ⟨head, inside, tail, htail, piece, hpiece, hname⟩
    · contradiction
    · next hbraces =>
      refine .inr ⟨not_mem_of_outerBraces? hbraces, ?_⟩
      split at hname
      · split at hname
        · contradiction
        · exact .inl (List.mem_singleton.1 hname)
      · exact .inr ⟨_, (trim_sublist _).trans (upTo_isPrefix _ _).sublist, List.mem_singleton.1 hname⟩

theorem count_joinPath_le (hc : c ∉ separator) (path head : Text) :
    (joinPath separator path head).count c ≤ path.count c + head.count c := by
  have hstrip : (stripEndAll separator (trim head)).Sublist (trim head) := by
    have hreverse := (stripAll_isSuffix separator.reverse (trim head).reverse).sublist.reverse
    rwa [List.reverse_reverse] at hreverse
  have hhead := (hstrip.trans (trim_sublist head)).count_le c
  have hsep : separator.count c = 0 := List.count_eq_zero.2 hc
  unfold joinPath
  dsimp only
  split
  · omega
  · split
    · omega
    · rw [List.count_append, List.count_append]
      omega

theorem length_lt_of_group (hgroup : trim tree = head ++ '{' :: (inside ++ '}' :: t))
    (hpiece : piece ∈ splitTopLevel 0 inside) : piece.length < tree.length := by
  have htrim := length_trim_le tree
  have hinside := length_le_of_mem_splitTopLevel hpiece
  rw [hgroup] at htrim
  simp only [List.length_append, List.length_cons] at htrim
  omega

/-- A character that is not in the separator is not in a name more often than in the path and the tree below it. -/
theorem count_le_of_mem_expandTree (hc : c ∉ separator) {path tree : Text}
    (hname : name ∈ expandTree separator path tree) : name.count c ≤ path.count c + tree.count c := by
  have htrim := (trim_sublist tree).count_le c
  rcases mem_expandTree_cases hname with ⟨head, inside, tail, hgroup, piece, hpiece, hname⟩ | ⟨-, hleaf⟩
  · have hshort := length_lt_of_group hgroup hpiece
    have hbelow := count_le_of_mem_expandTree hc hname
    have hpath := count_joinPath_le hc path head
    have hinside := (sublist_of_mem_splitTopLevel hpiece).count_le c
    rw [hgroup, List.count_append, List.count_cons, List.count_append] at htrim
    omega
  · rcases hleaf with rfl | ⟨leaf, hleaf, rfl⟩
    · omega
    · have hpath := count_joinPath_le hc path leaf
      have hsub := hleaf.count_le c
      omega
termination_by tree.length

/-- With an opening brace in a tree only what stands before a closing one gets into a name. -/
theorem exists_count_le_of_mem (hc : c ∉ separator) (hbrace : '{' ∈ trim tree)
    (hname : name ∈ expandTree separator path tree) :
    ∃ front tail, trim tree = front ++ '}' :: tail ∧ name.count c ≤ path.count c + front.count c := by
  rcases mem_expandTree_cases hname with ⟨head, inside, tail, hgroup, piece, hpiece, hname⟩ | ⟨hnone, -⟩
  · refine ⟨head ++ '{' :: inside, tail, by rw [hgroup, List.append_assoc, List.cons_append], ?_⟩
    have hbelow := count_le_of_mem_expandTree hc hname
    have hpath := count_joinPath_le hc path head
    have hinside := (sublist_of_mem_splitTopLevel hpiece).count_le c
    rw [List.count_append, List.count_cons]
    omega
  · exact absurd hbrace hnone

end Names

end Imports

end Outline
