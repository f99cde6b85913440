import Outline.Pattern.Match

namespace Outline

namespace Cursor

theorem mem_of_mem_distinct {visited : List Nat} {cursors : List Cursor} {cursor : Cursor}
    (hmem : cursor ∈ distinct visited cursors) : cursor ∈ cursors := by
  induction cursors generalizing visited with
  | nil => simp [distinct] at hmem
  | cons first rest ih =>
    simp only [distinct] at hmem
    split at hmem
    · exact List.mem_cons_of_mem _ (ih hmem)
    · rcases List.mem_cons.1 hmem with rfl | hmem
      · exact List.mem_cons_self
      · exact List.mem_cons_of_mem _ (ih hmem)

/-- The place after the characters `taken`, nothing being remembered on the way. -/
def skip (cursor : Cursor) (taken rest : Text) : Cursor :=
  ⟨cursor.pos + taken.length, taken.reverse ++ cursor.seen, rest, cursor.groups⟩

/-- The place that a task is about. -/
def Task.cursor : Task → Cursor
  | .visit cursor => cursor
  | .emit cursor => cursor

end Cursor

namespace Pattern

/-- The pattern leads from the first place to the second. -/
inductive Matches : Pattern → Cursor → Cursor → Prop where
  | empty (cursor : Cursor) : Matches .empty cursor cursor
  | one {cls : CharClass} {cursor : Cursor} {c : Char} {rest : Text} (hrest : cursor.rest = c :: rest)
      (hclass : cls.contains c = true) : Matches (.one cls) cursor (cursor.skip [c] rest)
  | run {cls : CharClass} {greedy : Bool} {cursor : Cursor} {taken rest : Text}
      (hrest : cursor.rest = taken ++ rest) (hclass : ∀ c ∈ taken, cls.contains c = true) :
      Matches (.run cls greedy) cursor (cursor.skip taken rest)
  | assert {condition : Assertion} {cursor : Cursor} (holds : cursor.holds condition = true) :
      Matches (.assert condition) cursor cursor
  | seq {first second : Pattern} {start middle stop : Cursor} (hfirst : Matches first start middle)
      (hsecond : Matches second middle stop) : Matches (.seq first second) start stop
  | altLeft {first second : Pattern} {start stop : Cursor} (hfirst : Matches first start stop) :
      Matches (.alt first second) start stop
  | altRight {first second : Pattern} {start stop : Cursor} (hsecond : Matches second start stop) :
      Matches (.alt first second) start stop
  | starNil {body : Pattern} {greedy : Bool} (cursor : Cursor) : Matches (.star body greedy) cursor cursor
  | starCons {body : Pattern} {greedy : Bool} {start middle stop : Cursor} (hround : Matches body start middle)
      (hrounds : Matches (.star body greedy) middle stop) : Matches (.star body greedy) start stop
  | group {label : Group} {body : Pattern} {start stop : Cursor} (hbody : Matches body start stop) :
      Matches (.group label body) start (stop.remember label start.pos)

theorem exists_of_mem_runFrom {cls : CharClass} {groups : List (Group × Capture)} {pos : Nat}
    {seen rest : Text} {cursor : Cursor} (hmem : cursor ∈ Cursor.runFrom cls groups pos seen rest) :
    ∃ taken after, rest = taken ++ after ∧ (∀ c ∈ taken, cls.contains c = true) ∧
      cursor = Cursor.skip ⟨pos, seen, rest, groups⟩ taken after := by
  induction rest generalizing pos seen with
  | nil =>
    simp only [Cursor.runFrom, List.mem_singleton] at hmem
    exact ⟨[], [], rfl, by simp, hmem⟩
  | cons c rest ih =>
    simp only [Cursor.runFrom, List.mem_cons] at hmem
    rcases hmem with rfl | hmem
    · exact ⟨[], c :: rest, rfl, by simp, rfl⟩
    split at hmem
    · next hclass =>
      obtain ⟨taken, after, rfl, hall, rfl⟩ := ih hmem
      refine ⟨c :: taken, after, rfl, ?_, ?_⟩
      · intro x hx
        rcases List.mem_cons.1 hx with rfl | hx
        · exact hclass
        · exact hall x hx
      · simp [Cursor.skip, Nat.add_assoc, Nat.add_comm 1]
    · simp at hmem

/-- The end of a repetition is reached by rounds from one of the places to be tried. -/
theorem exists_matches_of_mem_rounds {body : Pattern} {greedy : Bool}
    (hbody : ∀ {start stop : Cursor}, stop ∈ body.advance start → Matches body start stop) {fuel : Nat}
    {visited : List Nat} {tasks : List Cursor.Task} {stop : Cursor}
    (hmem : stop ∈ Cursor.rounds body.advance greedy fuel visited tasks) :
    ∃ task ∈ tasks, Matches (.star body greedy) task.cursor stop := by
  fun_induction Cursor.rounds body.advance greedy fuel visited tasks with
  | case1 => simp at hmem
  | case2 => simp at hmem
  | case3 fuel visited cursor tasks ih =>
    rcases List.mem_cons.1 hmem with rfl | hmem
    · exact ⟨_, List.mem_cons_self, .starNil _⟩
    · obtain ⟨task, htask, hrounds⟩ := ih hmem
      exact ⟨task, List.mem_cons_of_mem _ htask, hrounds⟩
  | case4 fuel visited cursor tasks hvisited ih =>
    obtain ⟨task, htask, hrounds⟩ := ih hmem
    exact ⟨task, List.mem_cons_of_mem _ htask, hrounds⟩
  | case5 fuel visited cursor tasks hnew next ordered ih =>
    obtain ⟨task, htask, hrounds⟩ := ih hmem
    rcases List.mem_append.1 htask with htask | htask
    · refine ⟨_, List.mem_cons_self, ?_⟩
      -- Either the repetition ends at this place, or a round leads on from it.
      have hcases : task = .emit cursor ∨ ∃ further ∈ body.advance cursor, task = .visit further := by
        simp only [ordered, next] at htask
        cases greedy <;> simp at htask <;> grind
      rcases hcases with rfl | ⟨further, hfurther, rfl⟩
      · exact hrounds
      · exact .starCons (hbody hfurther) hrounds
    · exact ⟨task, List.mem_cons_of_mem _ htask, hrounds⟩

/-- Every place to which a pattern is found to lead is a match. -/
theorem matches_of_mem_advance {p : Pattern} {start stop : Cursor} (hmem : stop ∈ p.advance start) :
    Matches p start stop := by
  induction p generalizing start stop with
  | empty =>
    simp only [advance, List.mem_singleton] at hmem
    subst hmem
    exact .empty _
  | one cls =>
    simp only [advance] at hmem
    split at hmem
    · simp at hmem
    · next c rest hrest =>
      split at hmem
      · next hclass =>
        obtain rfl := List.mem_singleton.1 hmem
        exact .one hrest hclass
      · simp at hmem
  | run cls greedy =>
    have hplaces : stop ∈ Cursor.runFrom cls start.groups start.pos start.seen start.rest := by
      cases greedy <;> simpa [advance] using hmem
    obtain ⟨taken, after, hrest, hclass, rfl⟩ := exists_of_mem_runFrom hplaces
    exact .run hrest hclass
  | assert condition =>
    simp only [advance] at hmem
    split at hmem
    · next holds =>
      obtain rfl := List.mem_singleton.1 hmem
      exact .assert holds
    · simp at hmem
  | seq first second ihfirst ihsecond =>
    obtain ⟨middle, hmiddle, hstop⟩ := List.mem_flatMap.1 (Cursor.mem_of_mem_distinct hmem)
    exact .seq (ihfirst hmiddle) (ihsecond hstop)
  | alt first second ihfirst ihsecond =>
    rcases List.mem_append.1 (Cursor.mem_of_mem_distinct hmem) with hmem | hmem
    · exact .altLeft (ihfirst hmem)
    · exact .altRight (ihsecond hmem)
  | star body greedy ih =>
    obtain ⟨task, htask, hrounds⟩ := exists_matches_of_mem_rounds ih hmem
    obtain rfl := List.mem_singleton.1 htask
    exact hrounds
  | group label body ih =>
    obtain ⟨inner, hinner, rfl⟩ := List.mem_map.1 hmem
    exact .group (ih hinner)

theorem matches_of_matchStart? {p : Pattern} {t : Text} {found : Cursor} (hfound : p.matchStart? t = some found) :
    Matches p (.start t) found :=
  matches_of_mem_advance (List.mem_of_head? hfound)

/-- A match passes over some characters and leaves the rest. -/
theorem Matches.exists_taken {p : Pattern} {start stop : Cursor} (h : Matches p start stop) :
    ∃ taken, start.rest = taken ++ stop.rest ∧ stop.seen = taken.reverse ++ start.seen ∧
      stop.pos = start.pos + taken.length := by
  induction h with
  | empty | assert | starNil => exact ⟨[], rfl, rfl, rfl⟩
  | one hrest => exact ⟨_, hrest, rfl, rfl⟩
  | run hrest => exact ⟨_, hrest, rfl, rfl⟩
  | altLeft _ ih | altRight _ ih | group _ ih => exact ih
  | seq _ _ ihfirst ihsecond | starCons _ _ ihfirst ihsecond =>
    obtain ⟨taken, hrest, hseen, hpos⟩ := ihfirst
    obtain ⟨taken', hrest', hseen', hpos'⟩ := ihsecond
    refine ⟨taken ++ taken', ?_, ?_, ?_⟩
    · rw [hrest, hrest', List.append_assoc]
    · rw [hseen', hseen, List.reverse_append, List.append_assoc]
    · rw [hpos', hpos, List.length_append, Nat.add_assoc]

end Pattern

end Outline
