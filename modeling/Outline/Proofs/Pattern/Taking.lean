import Outline.Proofs.Pattern.Matching

namespace Outline

namespace Pattern

/-- Some match of the pattern passes over the text. -/
def Takes (p : Pattern) (t : Text) : Prop :=
  ∃ start stop, Matches p start stop ∧ start.rest = t ++ stop.rest

variable {p first second body : Pattern} {cls : CharClass} {greedy : Bool} {label : Group} {t : Text}
  {start stop : Cursor}

section Parts

theorem eq_nil_of_takes_empty (htakes : Takes .empty t) : t = [] := by
  obtain ⟨start, stop, hmatches, hrest⟩ := htakes
  cases hmatches
  exact List.self_eq_append_left.1 hrest

theorem eq_nil_of_takes_assert {condition : Assertion} (htakes : Takes (.assert condition) t) : t = [] := by
  obtain ⟨start, stop, hmatches, hrest⟩ := htakes
  cases hmatches
  exact List.self_eq_append_left.1 hrest

theorem exists_of_takes_one (htakes : Takes (.one cls) t) : ∃ c, t = [c] ∧ cls.contains c = true := by
  obtain ⟨start, stop, hmatches, hrest⟩ := htakes
  cases hmatches with
  | @one _ _ c rest hstart hclass =>
    rw [hstart] at hrest
    exact ⟨c, (List.append_cancel_right hrest).symm, hclass⟩

theorem forall_of_takes_run (htakes : Takes (.run cls greedy) t) : ∀ c ∈ t, cls.contains c = true := by
  obtain ⟨start, stop, hmatches, hrest⟩ := htakes
  cases hmatches with
  | run hstart hclass =>
    rw [hstart] at hrest
    exact List.append_cancel_right hrest ▸ hclass

theorem exists_of_takes_seq (htakes : Takes (.seq first second) t) :
    ∃ s u, t = s ++ u ∧ Takes first s ∧ Takes second u := by
  obtain ⟨start, stop, hmatches, hrest⟩ := htakes
  cases hmatches with
  | seq hfirst hsecond =>
    obtain ⟨s, hs, -⟩ := hfirst.exists_taken
    obtain ⟨u, hu, -⟩ := hsecond.exists_taken
    rw [hs, hu, ← List.append_assoc] at hrest
    exact ⟨s, u, (List.append_cancel_right hrest).symm, ⟨_, _, hfirst, hs⟩, ⟨_, _, hsecond, hu⟩⟩

theorem takes_or_takes_of_alt (htakes : Takes (.alt first second) t) : Takes first t ∨ Takes second t := by
  obtain ⟨start, stop, hmatches, hrest⟩ := htakes
  cases hmatches with
  | altLeft hfirst => exact .inl ⟨start, stop, hfirst, hrest⟩
  | altRight hsecond => exact .inr ⟨start, stop, hsecond, hrest⟩

/-- A repetition takes what its rounds take, one after the other. -/
theorem exists_of_takes_star (htakes : Takes (.star body greedy) t) :
    ∃ parts : List Text, t = parts.flatten ∧ ∀ part ∈ parts, Takes body part := by
  obtain ⟨start, stop, hmatches, hrest⟩ := htakes
  generalize hstar : Pattern.star body greedy = p at hmatches
  induction hmatches generalizing t with
  | starNil => exact ⟨[], List.self_eq_append_left.1 hrest, List.forall_mem_nil _⟩
  | starCons hround hrounds _ ih =>
    obtain ⟨rfl, rfl⟩ := Pattern.star.inj hstar
    obtain ⟨s, hs, -⟩ := hround.exists_taken
    obtain ⟨u, hu, -⟩ := hrounds.exists_taken
    obtain ⟨parts, rfl, hparts⟩ := ih hu rfl
    rw [hs, hu, ← List.append_assoc] at hrest
    exact ⟨s :: parts, (List.append_cancel_right hrest).symm, List.forall_mem_cons.2 ⟨⟨_, _, hround, hs⟩, hparts⟩⟩
  | empty | one | run | assert | seq | altLeft | altRight | group => cases hstar

theorem takes_of_group (htakes : Takes (.group label body) t) : Takes body t := by
  obtain ⟨start, stop, hmatches, hrest⟩ := htakes
  cases hmatches with
  | group hbody => exact ⟨start, _, hbody, hrest⟩

end Parts

section Remembered

/-- Whether each part that is remembered under the label passes the check. -/
def everyGroup (label : Group) (check : Pattern → Bool) : Pattern → Bool
  | .seq first second | .alt first second => first.everyGroup label check && second.everyGroup label check
  | .star body _ => body.everyGroup label check
  | .group other body => (other != label || check body) && body.everyGroup label check
  | _ => true

variable {check : Pattern → Bool} {Holds : Text → Prop}

/-- What is remembered of a match is what the part takes. -/
theorem Matches.takes_remembered (hbody : Matches body start stop) :
    Takes body (stop.seen.take (stop.pos - start.pos)).reverse := by
  obtain ⟨taken, hrest, hseen, hpos⟩ := hbody.exists_taken
  have hcount : stop.pos - start.pos = taken.reverse.length := by
    rw [List.length_reverse]
    omega
  rw [hseen, hcount, List.take_left, List.reverse_reverse]
  exact ⟨start, stop, hbody, hrest⟩

theorem Matches.forall_capture (hcheck : ∀ body t, check body = true → Takes body t → Holds t)
    (hmatches : Matches p start stop) (hp : p.everyGroup label check = true)
    (hstart : ∀ capture, (label, capture) ∈ start.groups → Holds capture.text) :
    ∀ capture, (label, capture) ∈ stop.groups → Holds capture.text := by
  induction hmatches with
  | empty | one | run | assert | starNil => exact hstart
  | altLeft _ ih => exact ih (Bool.and_eq_true_iff.1 hp).1 hstart
  | altRight _ ih => exact ih (Bool.and_eq_true_iff.1 hp).2 hstart
  | seq _ _ ihfirst ihsecond =>
    obtain ⟨hfirst, hsecond⟩ := Bool.and_eq_true_iff.1 hp
    exact ihsecond hsecond (ihfirst hfirst hstart)
  | starCons _ _ ihround ihrounds => exact ihrounds hp (ihround hp hstart)
  | group hbody ih =>
    obtain ⟨hother, hbodyGroups⟩ := Bool.and_eq_true_iff.1 hp
    intro capture hmem
    rcases List.mem_cons.1 hmem with heq | hmem
    · obtain ⟨rfl, rfl⟩ := Prod.mk.inj heq
      exact hcheck _ _ (by simpa using hother) hbody.takes_remembered
    · exact ih hbodyGroups hstart capture hmem

/-- The text that a match from a place without memory remembers is one that the part takes. -/
theorem Matches.holds_of_text? (hcheck : ∀ body t, check body = true → Takes body t → Holds t)
    (hmatches : Matches p start stop) (hp : p.everyGroup label check = true) (hstart : start.groups = [])
    (htext : stop.text? label = some t) : Holds t := by
  obtain ⟨capture, hcapture, rfl⟩ := Option.map_eq_some_iff.1 htext
  rw [Cursor.capture?, List.lookup_eq_some_iff] at hcapture
  obtain ⟨before, after, hgroups, -⟩ := hcapture
  refine hmatches.forall_capture hcheck hp (fun capture hmem => ?_) capture ?_
  · rw [hstart] at hmem
    cases hmem
  · rw [hgroups]
    exact List.mem_append_right _ List.mem_cons_self

/-- A match that is found in a text starts at a place without memory. -/
theorem exists_matches_of_mem_findFrom {found : Cursor} {skip pos : Nat} {seen rest : Text}
    (hmem : found ∈ p.findFrom skip pos seen rest) : ∃ start, start.groups = [] ∧ Matches p start found := by
  fun_induction findFrom p skip pos seen rest with
  | case1 => cases hmem
  | case2 _ _ _ _ _ ih => exact ih hmem
  | case3 pos seen c rest other hother ih =>
    rcases List.mem_cons.1 hmem with rfl | hmem
    · exact ⟨_, rfl, matches_of_mem_advance (List.mem_of_head? hother)⟩
    · exact ih hmem
  | case4 pos seen c rest _ ih => exact ih hmem

end Remembered

end Pattern

end Outline
