import Mathlib.Data.List.Nodup
import Outline.Batch

namespace Outline

/-- The path of the file that an outcome belongs to. -/
def outcomePath? : Except Fault FileOutline → Option String
  | .ok file => some file.path
  | .error fault => fault.path?

namespace Batch

theorem total_ofOutcomes (outcomes : List (Except Fault FileOutline)) :
    (ofOutcomes outcomes).total = outcomes.length := by
  induction outcomes with
  | nil => rfl
  | cons outcome rest ih =>
    rw [total] at ih
    cases outcome <;> simp only [total, ofOutcomes, List.length_cons] <;> omega

/-- The paths of a batch are those of its outcomes. -/
theorem paths_ofOutcomes_perm (outcomes : List (Except Fault FileOutline)) :
    ((ofOutcomes outcomes).files.map (fun file => some file.path) ++
      (ofOutcomes outcomes).faults.map Fault.path?).Perm (outcomes.map outcomePath?) := by
  induction outcomes with
  | nil => exact .refl _
  | cons outcome rest ih =>
    cases outcome with
    | ok file => exact ih.cons _
    | error fault => exact List.perm_middle.trans (ih.cons _)

/-- Outcomes in another order give the same outlines and the same faults in another order. -/
theorem ofOutcomes_perm {outcomes others : List (Except Fault FileOutline)} (hperm : outcomes.Perm others) :
    (ofOutcomes outcomes).files.Perm (ofOutcomes others).files ∧
      (ofOutcomes outcomes).faults.Perm (ofOutcomes others).faults := by
  induction hperm with
  | nil => exact ⟨.refl _, .refl _⟩
  | cons outcome _ ih =>
    cases outcome with
    | ok file => exact ⟨ih.1.cons file, ih.2⟩
    | error fault => exact ⟨ih.1, ih.2.cons fault⟩
  | swap first second rest =>
    match first, second with
    | .ok a, .ok b => exact ⟨.swap a b _, .refl _⟩
    | .error a, .error b => exact ⟨.refl _, .swap a b _⟩
    | .ok _, .error _ => exact ⟨.refl _, .refl _⟩
    | .error _, .ok _ => exact ⟨.refl _, .refl _⟩
  | trans _ _ ih ih' => exact ⟨ih.1.trans ih'.1, ih.2.trans ih'.2⟩

/-- Sorting by labels puts none before one with a lesser label. -/
theorem pairwise_mergeSort_label {α : Type} (label : α → String) (items : List α) :
    (items.mergeSort fun a b => decide (label a ≤ label b)).Pairwise fun a b => label a ≤ label b := by
  refine (List.pairwise_mergeSort ?_ ?_ items).imp of_decide_eq_true
  · intro a b c hab hbc
    exact decide_eq_true (String.le_trans (of_decide_eq_true hab) (of_decide_eq_true hbc))
  · intro a b
    simpa using String.le_total (label a) (label b)

/-- Sorting by labels that are all different forgets the order in which the items came. -/
theorem mergeSort_eq_of_perm {α : Type} (label : α → String) {items others : List α} (hperm : items.Perm others)
    (hdistinct : (items.map label).Nodup) :
    items.mergeSort (fun a b => decide (label a ≤ label b)) =
      others.mergeSort fun a b => decide (label a ≤ label b) := by
  have hmerged : (items.mergeSort fun a b => decide (label a ≤ label b)).Perm
      (others.mergeSort fun a b => decide (label a ≤ label b)) :=
    (List.mergeSort_perm _ _).trans (hperm.trans (List.mergeSort_perm _ _).symm)
  refine List.Perm.eq_of_pairwise ?_ (pairwise_mergeSort_label label items)
    (pairwise_mergeSort_label label others) hmerged
  intro a b ha hb hab hba
  have hsame : label a = label b := String.le_antisymm hab hba
  exact List.inj_on_of_nodup_map hdistinct (List.mem_mergeSort.1 ha) (hperm.mem_iff.2 (List.mem_mergeSort.1 hb)) hsame

/-- One batch is the other in the order of the paths. -/
structure SortedFrom (sorted batch : Batch) : Prop where
  files_perm : sorted.files.Perm batch.files
  faults_perm : sorted.faults.Perm batch.faults
  files_ordered : sorted.files.Pairwise fun a b => a.path ≤ b.path
  faults_ordered : sorted.faults.Pairwise fun a b => pathOf a ≤ pathOf b

theorem sortedFrom_sortByPath (batch : Batch) : batch.sortByPath.SortedFrom batch where
  files_perm := List.mergeSort_perm _ _
  faults_perm := List.mergeSort_perm _ _
  files_ordered := pairwise_mergeSort_label FileOutline.path batch.files
  faults_ordered := pairwise_mergeSort_label pathOf batch.faults

/-- Outcomes of files with different paths give one sorted batch in whatever order they come. -/
theorem sortByPath_ofOutcomes_eq {outcomes others : List (Except Fault FileOutline)} {paths : List String}
    (hpaths : outcomes.map outcomePath? = paths.map some) (hdistinct : paths.Nodup) (hperm : outcomes.Perm others) :
    (ofOutcomes outcomes).sortByPath = (ofOutcomes others).sortByPath := by
  have hbatch := paths_ofOutcomes_perm outcomes
  rw [hpaths] at hbatch
  have hnodup := hbatch.nodup_iff.2 (hdistinct.map fun _ _ => Option.some.inj)
  obtain ⟨hfiles, hfaults, -⟩ := List.nodup_append.1 hnodup
  have hpathOf : (ofOutcomes outcomes).faults.map Fault.path? = ((ofOutcomes outcomes).faults.map pathOf).map some := by
    rw [List.map_map]
    refine List.map_congr_left fun fault hmem => ?_
    have hpath := hbatch.mem_iff.1 (List.mem_append_right _ (List.mem_map_of_mem hmem))
    obtain ⟨path, _, hpath⟩ := List.mem_map.1 hpath
    rw [Function.comp_apply, pathOf, ← hpath, Option.getD_some]
  rw [hpathOf] at hfaults
  obtain ⟨hfilesPerm, hfaultsPerm⟩ := ofOutcomes_perm hperm
  rw [show (fun file => some file.path) = some ∘ FileOutline.path from rfl, ← List.map_map] at hfiles
  rw [sortByPath, sortByPath, mergeSort_eq_of_perm FileOutline.path hfilesPerm (hfiles.of_map _),
    mergeSort_eq_of_perm pathOf hfaultsPerm (hfaults.of_map _)]

end Batch

end Outline
