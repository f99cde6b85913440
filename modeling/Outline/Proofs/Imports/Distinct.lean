import Outline.Imports.Basic
import Outline.Proofs.Text.Solid

namespace Outline

namespace Imports

open Text

section FirstSeen

variable {met met' names : List Text} {name : Text}

theorem mem_firstSeen : name ∈ firstSeen met names ↔ name ∈ names ∧ name ≠ [] ∧ name ∉ met := by
  induction names generalizing met with
  | nil => simp [firstSeen]
  | cons other names ih =>
    rw [firstSeen]
    split
    · next hleft =>
      have hskipped : other = [] ∨ other ∈ met := by simpa using hleft
      rw [ih, List.mem_cons]
      constructor
      · rintro ⟨hmem, hname⟩
        exact ⟨.inr hmem, hname⟩
      · rintro ⟨rfl | hmem, hname⟩
        · exact absurd hskipped (not_or.2 hname)
        · exact ⟨hmem, hname⟩
    · next hkept =>
      have hnew : other ≠ [] ∧ other ∉ met := by simpa using hkept
      rw [List.mem_cons, ih, List.mem_cons, List.mem_cons, not_or]
      constructor
      · rintro (rfl | ⟨hmem, hne, -, hmet⟩)
        · exact ⟨.inl rfl, hnew⟩
        · exact ⟨.inr hmem, hne, hmet⟩
      · rintro ⟨rfl | hmem, hne, hmet⟩
        · exact .inl rfl
        · by_cases heq : name = other
          · exact .inl heq
          · exact .inr ⟨hmem, hne, heq, hmet⟩

theorem nodup_firstSeen (met names : List Text) : (firstSeen met names).Nodup := by
  induction names generalizing met with
  | nil => exact List.nodup_nil
  | cons other names ih =>
    rw [firstSeen]
    split
    · exact ih met
    · refine List.nodup_cons.2 ⟨fun hmem => ?_, ih _⟩
      exact (mem_firstSeen.1 hmem).2.2 List.mem_cons_self

/-- Of what was met before it only matters which names that are not empty are there. -/
theorem firstSeen_congr (hmet : ∀ name ≠ [], name ∈ met ↔ name ∈ met') (names : List Text) :
    firstSeen met names = firstSeen met' names := by
  induction names generalizing met met' with
  | nil => rfl
  | cons other names ih =>
    have hcond : (other.isEmpty || met.contains other) = (other.isEmpty || met'.contains other) := by
      by_cases hempty : other = []
      · simp [hempty]
      · simp [hmet other hempty]
    have hcons : ∀ name ≠ [], name ∈ other :: met ↔ name ∈ other :: met' := by
      intro name hname
      rw [List.mem_cons, List.mem_cons, hmet name hname]
    rw [firstSeen, firstSeen, hcond, ih hmet, ih hcons]

/-- Names that were met before are left out. -/
theorem firstSeen_append_met (front met names : List Text) :
    firstSeen (front ++ met) names = (firstSeen met names).filter fun name => !front.contains name := by
  induction names generalizing met with
  | nil => rfl
  | cons other names ih =>
    rw [firstSeen, firstSeen]
    by_cases hskipped : (other.isEmpty || met.contains other) = true
    · have hboth : (other.isEmpty || (front ++ met).contains other) = true := by
        rw [List.contains_append, Bool.or_left_comm, hskipped, Bool.or_true]
      rw [if_pos hboth, if_pos hskipped, ih]
    · obtain ⟨hempty, hmet⟩ : other.isEmpty = false ∧ met.contains other = false := by simpa using hskipped
      rw [if_neg hskipped, List.contains_append, hempty, hmet, Bool.false_or, Bool.or_false]
      have hlater := ih (other :: met)
      by_cases hfront : front.contains other = true
      · rw [if_pos hfront, List.filter_cons_of_neg (by rw [hfront]; decide), ← hlater]
        apply firstSeen_congr
        intro name _
        have hmem : name = other → name ∈ front := fun heq => heq ▸ List.contains_iff_mem.1 hfront
        rw [List.mem_append, List.mem_append, List.mem_cons]
        grind
      · rw [if_neg hfront, List.filter_cons_of_pos (by simpa using hfront), ← hlater]
        congr 1
        apply firstSeen_congr
        intro name _
        rw [List.mem_cons, List.mem_append, List.mem_append, List.mem_cons, or_left_comm]

/-- What is met behind other names is looked at in view of them. -/
theorem firstSeen_append (met front names : List Text) :
    firstSeen met (front ++ names) = firstSeen met front ++ firstSeen (front ++ met) names := by
  induction front generalizing met with
  | nil => rfl
  | cons other front ih =>
    rw [List.cons_append, firstSeen, firstSeen]
    split
    · next hleft =>
      have hskipped : other = [] ∨ other ∈ met := by simpa using hleft
      rw [ih]
      congr 1
      apply firstSeen_congr
      intro name hname
      have hmem : name = other → name ∈ met := fun heq =>
        hskipped.elim (fun hempty => absurd (heq.trans hempty) hname) (heq ▸ ·)
      rw [List.mem_append, List.cons_append, List.mem_cons, List.mem_append]
      grind
    · rw [ih, List.cons_append]
      congr 2
      apply firstSeen_congr
      intro name _
      rw [List.mem_append, List.mem_cons, List.cons_append, List.mem_cons, List.mem_append, or_left_comm]

theorem firstSeen_eq (hnames : ∀ name ∈ names, name ≠ []) (met : List Text) :
    firstSeen met names = (names.filter fun name => !met.contains name).eraseDups := by
  induction names generalizing met with
  | nil => rfl
  | cons name names ih =>
    obtain ⟨hname, hnames⟩ := List.forall_mem_cons.1 hnames
    have hsome : name.isEmpty = false := by simpa using hname
    rw [firstSeen, hsome, Bool.false_or]
    by_cases hmet : met.contains name = true
    · rw [if_pos hmet, ih hnames, List.filter_cons_of_neg (by rw [hmet]; decide)]
    · rw [if_neg hmet, ih hnames, List.filter_cons_of_pos (by simpa using hmet), List.eraseDups_cons,
        List.filter_filter]
      congr 2
      apply List.filter_congr
      intro other _
      rw [List.contains_cons, Bool.not_or]

end FirstSeen

section Distinct

theorem mem_distinct {names : List Text} {name : Text} :
    name ∈ distinct names ↔ name ≠ [] ∧ ∃ met ∈ names, trim met = name := by
  rw [distinct, mem_firstSeen, List.mem_map]
  simp [and_comm]

theorem nodup_distinct (names : List Text) : (distinct names).Nodup :=
  nodup_firstSeen [] _

theorem solid_of_mem_distinct {names : List Text} {name : Text} (hname : name ∈ distinct names) : Solid name := by
  obtain ⟨hne, met, -, rfl⟩ := mem_distinct.1 hname
  exact solid_trim hne

/-- Names that are met later add those that were not met before. -/
theorem distinct_append (front names : List Text) :
    distinct (front ++ names) = distinct front ++ (distinct names).filter fun name => name ∉ distinct front := by
  rw [distinct, List.map_append, firstSeen_append, firstSeen_append_met]
  congr 1
  apply List.filter_congr
  intro name hname
  have hne : name ≠ [] := (mem_firstSeen.1 hname).2.1
  have hfront : name ∈ distinct front ↔ name ∈ front.map trim := by
    rw [distinct, mem_firstSeen]
    exact ⟨fun hmem => hmem.1, fun hmem => ⟨hmem, hne, List.not_mem_nil⟩⟩
  rw [Bool.eq_iff_iff, Bool.not_eq_true', decide_eq_true_iff, hfront, List.contains_eq_mem, decide_eq_false_iff_not]

/-- Names with something in them are listed once each, where they come first, less the white space around them. -/
theorem distinct_eq_eraseDups_map {names : List Text} (hnames : ∀ name ∈ names, trim name ≠ []) :
    distinct names = (names.map trim).eraseDups := by
  have hall : (names.map trim).filter (fun name => !List.contains ([] : List Text) name) = names.map trim :=
    List.filter_eq_self.2 fun name _ => rfl
  rw [distinct, firstSeen_eq (List.forall_mem_map.2 hnames), hall]

/-- Names that need no trimming are listed once each, where they come first. -/
theorem distinct_eq_eraseDups {names : List Text} (hnames : ∀ name ∈ names, Solid name) :
    distinct names = names.eraseDups := by
  have htrim : names.map trim = names := by
    rw [List.map_congr_left fun name hname => (hnames name hname).trim, List.map_id']
  rw [distinct_eq_eraseDups_map, htrim]
  intro name hname
  rw [(hnames name hname).trim]
  exact (hnames name hname).ends.ne_nil

end Distinct

end Imports

end Outline
