import Outline.Proofs.Declaration.Order

namespace Outline.Declaration

section Walk

mutual

/-- A walk through the declaration, depth first: what is known of each declaration, with its level if the
first one is on the given level. -/
def leveled (level : Nat) : Declaration → List (Nat × Entry)
  | ⟨entry, children⟩ => (level, entry) :: leveledAll (level + 1) children

/-- A walk through a list of declarations that are on the given level. -/
def leveledAll (level : Nat) : List Declaration → List (Nat × Entry)
  | [] => []
  | d :: rest => leveled level d ++ leveledAll level rest

end

@[simp]
theorem leveledAll_nil (level : Nat) : leveledAll level [] = [] := by
  rw [leveledAll]

@[simp]
theorem withChildren_children (d : Declaration) : d.withChildren d.children = d := by
  cases d
  rfl

theorem leveledAll_withChildren (level : Nat) (d : Declaration) (children rest : List Declaration) :
    leveledAll level (d.withChildren children :: rest) =
      (level, d.entry) :: (leveledAll (level + 1) children ++ leveledAll level rest) := by
  rw [withChildren, leveledAll, leveled, List.cons_append]

theorem leveledAll_cons (level : Nat) (d : Declaration) (rest : List Declaration) :
    leveledAll level (d :: rest) =
      (level, d.entry) :: (leveledAll (level + 1) d.children ++ leveledAll level rest) := by
  rw [← leveledAll_withChildren, withChildren_children]

/-- A property of lists of declarations that passes from the children of the first and from the others to
the list holds of every list. -/
theorem list_induction {motive : List Declaration → Prop} (nil : motive [])
    (cons : ∀ d rest, motive d.children → motive rest → motive (d :: rest)) (declarations : List Declaration) :
    motive declarations := by
  induction htotal : totalAll declarations using Nat.strongRecOn generalizing declarations with
  | ind n ih =>
    cases declarations with
    | nil => exact nil
    | cons d rest =>
      rw [totalAll_cons] at htotal
      refine cons d rest (ih _ ?_ _ rfl) (ih _ ?_ _ rfl) <;> omega

/-- Without the levels it is the walk that meets the declarations themselves. -/
theorem map_snd_leveledAll (level : Nat) (declarations : List Declaration) :
    (leveledAll level declarations).map Prod.snd = (walkAll declarations).map entry := by
  induction declarations using list_induction generalizing level with
  | nil => simp [walkAll]
  | cons d rest ihchildren ihrest =>
    rw [leveledAll_cons, walkAll_cons, List.map_cons, List.map_cons, List.map_append, List.map_append,
      ihchildren, ihrest]

theorem length_leveledAll (level : Nat) (declarations : List Declaration) :
    (leveledAll level declarations).length = totalAll declarations := by
  induction declarations using list_induction generalizing level with
  | nil => simp [totalAll]
  | cons d rest ihchildren ihrest =>
    rw [leveledAll_cons, totalAll_cons, List.length_cons, List.length_append, ihchildren, ihrest]
    omega

theorem le_of_mem_leveledAll {level : Nat} {declarations : List Declaration} {node : Nat × Entry}
    (hmem : node ∈ leveledAll level declarations) : level ≤ node.1 := by
  induction declarations using list_induction generalizing level with
  | nil => simp at hmem
  | cons d rest ihchildren ihrest =>
    rw [leveledAll_cons, List.mem_cons, List.mem_append] at hmem
    rcases hmem with rfl | hmem | hmem
    · exact Nat.le_refl _
    · exact Nat.le_of_succ_le (ihchildren hmem)
    · exact ihrest hmem

end Walk

section Prune

mutual

/-- The declaration with `levels` levels inside it. -/
def prune (levels : Nat) : Declaration → Declaration
  | ⟨entry, children⟩ => ⟨entry, pruneAll levels children⟩

/-- The first `levels` levels of a list of declarations. -/
def pruneAll : (levels : Nat) → List Declaration → List Declaration
  | 0, _ => []
  | _ + 1, [] => []
  | levels + 1, d :: rest => prune levels d :: pruneAll (levels + 1) rest

end

@[simp]
theorem pruneAll_zero (declarations : List Declaration) : pruneAll 0 declarations = [] := by
  cases declarations <;> rw [pruneAll]

@[simp]
theorem pruneAll_nil (levels : Nat) : pruneAll levels [] = [] := by
  cases levels <;> rw [pruneAll]

theorem pruneAll_cons (levels : Nat) (d : Declaration) (rest : List Declaration) :
    pruneAll (levels + 1) (d :: rest) =
      d.withChildren (pruneAll levels d.children) :: pruneAll (levels + 1) rest := by
  cases d
  rw [pruneAll, prune]
  rfl

theorem depthAll_cons (d : Declaration) (rest : List Declaration) :
    depthAll (d :: rest) = max (depthAll d.children + 1) (depthAll rest) := by
  cases d
  rw [depthAll, depth]

theorem depthAll_le_iff (level bound : Nat) (declarations : List Declaration) :
    depthAll declarations ≤ bound ↔ ∀ node ∈ leveledAll level declarations, node.1 < level + bound := by
  induction declarations using list_induction generalizing level bound with
  | nil => simp [depthAll]
  | cons d rest ihchildren ihrest =>
    rw [depthAll_cons, leveledAll_cons, Nat.max_le, ihrest level bound]
    simp only [List.mem_cons, List.mem_append, or_imp, forall_and]
    cases bound with
    | zero => simp
    | succ bound =>
      have hlevel : level + 1 + bound = level + (bound + 1) := by omega
      rw [Nat.add_le_add_iff_right, ihchildren (level + 1) bound, hlevel]
      simp

/-- Pruning removes the deeper levels from a walk and nothing else. -/
theorem leveledAll_pruneAll (level levels : Nat) (declarations : List Declaration) :
    leveledAll level (pruneAll levels declarations) =
      (leveledAll level declarations).filter fun node => node.1 < level + levels := by
  induction declarations using list_induction generalizing level levels with
  | nil => simp
  | cons d rest ihchildren ihrest =>
    cases levels with
    | zero =>
      rw [pruneAll_zero, leveledAll_nil, eq_comm, List.filter_eq_nil_iff]
      intro node hmem
      simpa using le_of_mem_leveledAll hmem
    | succ levels =>
      have hlevels : level + 1 + levels = level + (levels + 1) := by omega
      rw [pruneAll_cons, leveledAll_withChildren, leveledAll_cons, ihchildren, ihrest, hlevels,
        List.filter_cons_of_pos (by simp), List.filter_append]

end Prune

end Outline.Declaration
