import Outline.Scan

namespace Outline.Declaration

/-- The declarations stand one after the other within the lines `first` to `last`, and so do, behind its
first line, those inside each of them. -/
inductive Ordered : (first last : Nat) → List Declaration → Prop where
  | nil {first last : Nat} : Ordered first last []
  | cons {first last : Nat} {d : Declaration} {rest : List Declaration} (hfirst : first ≤ d.startLine)
      (hrange : d.startLine ≤ d.endLine) (hlast : d.endLine ≤ last)
      (inside : Ordered (d.startLine + 1) d.endLine d.children) (after : Ordered (d.endLine + 1) last rest) :
      Ordered first last (d :: rest)

theorem walkAll_cons (d : Declaration) (rest : List Declaration) :
    walkAll (d :: rest) = d :: (walkAll d.children ++ walkAll rest) := by
  cases d
  simp [walkAll, walk]

/-- What a walk meets is in the list or inside one of the list. -/
theorem exists_of_mem_walkAll {d : Declaration} {declarations : List Declaration}
    (hmem : d ∈ walkAll declarations) : ∃ top ∈ declarations, d = top ∨ d ∈ walkAll top.children := by
  induction declarations with
  | nil => simp [walkAll] at hmem
  | cons top rest ih =>
    rw [walkAll_cons, List.mem_cons, List.mem_append] at hmem
    rcases hmem with rfl | hmem | hmem
    · exact ⟨d, List.mem_cons_self, .inl rfl⟩
    · exact ⟨top, List.mem_cons_self, .inr hmem⟩
    · obtain ⟨other, hother, hwithin⟩ := ih hmem
      exact ⟨other, List.mem_cons_of_mem _ hother, hwithin⟩

theorem totalAll_cons (d : Declaration) (rest : List Declaration) :
    totalAll (d :: rest) = 1 + totalAll d.children + totalAll rest := by
  cases d
  simp [totalAll, total]

namespace Ordered

variable {first last : Nat} {declarations : List Declaration}

theorem mono {first' last' : Nat} (h : Ordered first last declarations) (hfirst : first' ≤ first)
    (hlast : last ≤ last') : Ordered first' last' declarations := by
  induction h generalizing first' with
  | nil => exact .nil
  | cons hstart hrange hend inside _ _ ihafter =>
    exact .cons (by omega) hrange (by omega) inside (ihafter (Nat.le_refl _) hlast)

/-- Every declaration of the tree has its range within the lines of the list. -/
theorem bounds (h : Ordered first last declarations) :
    ∀ d ∈ walkAll declarations, first ≤ d.startLine ∧ d.startLine ≤ d.endLine ∧ d.endLine ≤ last := by
  induction h with
  | nil => simp [walkAll]
  | @cons _ _ parent rest hstart hrange hend _ _ ihinside ihafter =>
    intro d hmem
    rw [walkAll_cons, List.mem_cons, List.mem_append] at hmem
    rcases hmem with rfl | hmem | hmem
    · exact ⟨hstart, hrange, hend⟩
    · obtain ⟨hlo, hle, hhi⟩ := ihinside d hmem
      exact ⟨by omega, hle, by omega⟩
    · obtain ⟨hlo, hle, hhi⟩ := ihafter d hmem
      exact ⟨by omega, hle, hhi⟩

/-- What stands inside any declaration of the tree is ordered behind its first line. -/
theorem children (h : Ordered first last declarations) :
    ∀ d ∈ walkAll declarations, Ordered (d.startLine + 1) d.endLine d.children := by
  induction h with
  | nil => simp [walkAll]
  | cons _ _ _ inside _ ihinside ihafter =>
    intro d hmem
    rw [walkAll_cons, List.mem_cons, List.mem_append] at hmem
    rcases hmem with rfl | hmem | hmem
    · exact inside
    · exact ihinside d hmem
    · exact ihafter d hmem

theorem mem_walkAll_of_mem {d : Declaration} (hmem : d ∈ declarations) : d ∈ walkAll declarations := by
  induction declarations with
  | nil => simp at hmem
  | cons parent rest ih =>
    rw [walkAll_cons, List.mem_cons, List.mem_append]
    rcases List.mem_cons.1 hmem with rfl | hmem
    · exact .inl rfl
    · exact .inr (.inr (ih hmem))

/-- Siblings have disjoint ranges in the order of the list. -/
theorem pairwise (h : Ordered first last declarations) :
    declarations.Pairwise fun a b => a.endLine < b.startLine := by
  induction h with
  | nil => exact .nil
  | cons _ _ _ _ after _ ihafter =>
    refine List.pairwise_cons.2 ⟨fun b hmem => ?_, ihafter⟩
    exact (after.bounds b (mem_walkAll_of_mem hmem)).1

/-- A walk meets the declarations in the order of their first lines. -/
theorem pairwise_walkAll (h : Ordered first last declarations) :
    ((walkAll declarations).map startLine).Pairwise (· < ·) := by
  induction h with
  | nil => simp [walkAll]
  | @cons _ _ parent rest _ hrange _ inside after ihinside ihafter =>
    rw [walkAll_cons, List.map_cons, List.map_append, List.pairwise_cons, List.pairwise_append]
    refine ⟨fun line hmem => ?_, ihinside, ihafter, fun line hmem line' hmem' => ?_⟩
    · rcases List.mem_append.1 hmem with hmem | hmem
      · obtain ⟨d, hd, rfl⟩ := List.mem_map.1 hmem
        exact (inside.bounds d hd).1
      · obtain ⟨d, hd, rfl⟩ := List.mem_map.1 hmem
        have := (after.bounds d hd).1
        omega
    · obtain ⟨d, hd, rfl⟩ := List.mem_map.1 hmem
      obtain ⟨d', hd', rfl⟩ := List.mem_map.1 hmem'
      have := inside.bounds d hd
      have := (after.bounds d' hd').1
      omega

/-- There are no more declarations than lines. -/
theorem totalAll_le (h : Ordered first last declarations) : totalAll declarations ≤ last + 1 - first := by
  induction h with
  | nil => exact Nat.zero_le _
  | cons _ _ _ _ _ ihinside ihafter =>
    rw [totalAll_cons]
    omega

end Ordered

/-- The geometry of an outline of a text with `count` lines. -/
structure WellPlaced (count : Nat) (declarations : List Declaration) : Prop where
  within : ∀ d ∈ walkAll declarations, 1 ≤ d.startLine ∧ d.startLine ≤ d.endLine ∧ d.endLine ≤ count
  contained : ∀ d ∈ walkAll declarations, ∀ child ∈ d.children,
    d.startLine < child.startLine ∧ child.endLine ≤ d.endLine
  disjoint : declarations.Pairwise fun a b => a.endLine < b.startLine
  disjoint_children : ∀ d ∈ walkAll declarations, d.children.Pairwise fun a b => a.endLine < b.startLine
  increasing : ((walkAll declarations).map startLine).Pairwise (· < ·)
  total_le : totalAll declarations ≤ count

theorem Ordered.wellPlaced {count : Nat} {declarations : List Declaration}
    (h : Ordered 1 count declarations) : WellPlaced count declarations where
  within := h.bounds
  contained := by
    intro d hmem child hchild
    obtain ⟨hstart, _, hend⟩ := (h.children d hmem).bounds child (mem_walkAll_of_mem hchild)
    exact ⟨hstart, hend⟩
  disjoint := h.pairwise
  disjoint_children := fun d hmem => (h.children d hmem).pairwise
  increasing := h.pairwise_walkAll
  total_le := by
    have := h.totalAll_le
    omega

/-- A declaration within bounds is not moved by keeping it in them. -/
theorem clampInto_eq_self {first last : Nat} {d : Declaration} (hfirst : first ≤ d.startLine)
    (hrange : d.startLine ≤ d.endLine) (hlast : d.endLine ≤ last) : d.clampInto first last = d := by
  have hstart : min (max d.startLine first) last = d.startLine := by omega
  have hend : min (max d.endLine d.startLine) last = d.endLine := by omega
  simp only [clampInto, hstart, hend]
  cases d
  rfl

theorem Ordered.map_clampInto {first last : Nat} {declarations : List Declaration}
    (h : Ordered first last declarations) : declarations.map (clampInto first last) = declarations := by
  have hself : ∀ d ∈ declarations, d.clampInto first last = d := by
    intro d hmem
    obtain ⟨hfirst, hrange, hlast⟩ := h.bounds d (mem_walkAll_of_mem hmem)
    exact clampInto_eq_self hfirst hrange hlast
  rw [List.map_congr_left hself, List.map_id']

end Outline.Declaration
