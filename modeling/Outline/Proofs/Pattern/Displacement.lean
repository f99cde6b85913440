import Outline.Proofs.Grammar.SolidNames

namespace Outline

theorem Text.startsWhere_append_spaces {p : Char → Bool} (hspace : p ' ' = false) (t : Text) (n : Nat) :
    startsWhere p (t ++ spaces n) = startsWhere p t := by
  cases t with
  | nil => cases n <;> simp [spaces, startsWhere, List.replicate_succ, hspace]
  | cons c t => rfl

namespace Cursor

/-- What is remembered when `n` spaces are put before the text. -/
def displaceGroups (n : Nat) (groups : List (Group × Capture)) : List (Group × Capture) :=
  groups.map fun part => (part.1, ⟨part.2.start + n, part.2.text⟩)

/-- The place when `n` spaces are put before the text. -/
def displace (n : Nat) (cursor : Cursor) : Cursor :=
  ⟨cursor.pos + n, cursor.seen ++ Text.spaces n, cursor.rest, displaceGroups n cursor.groups⟩

/-- The task when `n` spaces are put before the text. -/
def Task.displace (n : Nat) : Task → Task
  | .visit cursor => .visit (cursor.displace n)
  | .emit cursor => .emit (cursor.displace n)

variable {n : Nat}

theorem capture?_displace (n : Nat) (cursor : Cursor) (label : Group) :
    (cursor.displace n).capture? label =
      (cursor.capture? label).map fun capture => ⟨capture.start + n, capture.text⟩ := by
  change (displaceGroups n cursor.groups).lookup label = (cursor.groups.lookup label).map _
  induction cursor.groups with
  | nil => rfl
  | cons part groups ih =>
    rw [displaceGroups, List.map_cons, List.lookup_cons, List.lookup_cons]
    split
    · rfl
    · exact ih

/-- The texts that are remembered stay the same. -/
theorem text?_displace (n : Nat) (cursor : Cursor) (label : Group) :
    (cursor.displace n).text? label = cursor.text? label := by
  rw [text?, capture?_displace, text?, Option.map_map]
  rfl

theorem holds_displace {condition : Assertion} (hplace : condition ≠ .textStart ∧ condition ≠ .lineStart)
    (cursor : Cursor) : (cursor.displace n).holds condition = cursor.holds condition := by
  cases condition with
  | textStart => exact absurd rfl hplace.1
  | lineStart => exact absurd rfl hplace.2
  | textEnd => rfl
  | wordEdge =>
    have hseen := Text.startsWhere_append_spaces (p := isWordChar) (by decide) cursor.seen n
    simp only [holds, displace, hseen]

theorem distinct_displace (visited : List Nat) (cursors : List Cursor) :
    distinct (visited.map (· + n)) (cursors.map (displace n)) = (distinct visited cursors).map (displace n) := by
  induction cursors generalizing visited with
  | nil => rfl
  | cons cursor cursors ih =>
    have hvisited : (visited.map (· + n)).contains (cursor.displace n).pos = visited.contains cursor.pos := by
      simp [displace]
    rw [List.map_cons, distinct, distinct, hvisited]
    split
    · exact ih visited
    · exact congrArg _ (ih (cursor.pos :: visited))

theorem runFrom_displace (cls : CharClass) (groups : List (Group × Capture)) (pos : Nat) (seen rest : Text) :
    runFrom cls (displaceGroups n groups) (pos + n) (seen ++ Text.spaces n) rest =
      (runFrom cls groups pos seen rest).map (displace n) := by
  induction rest generalizing pos seen with
  | nil => rfl
  | cons c rest ih =>
    have hrest := ih (pos + 1) (c :: seen)
    rw [Nat.add_right_comm] at hrest
    rw [runFrom, runFrom, List.map_cons]
    split
    · exact congrArg _ hrest
    · rfl

theorem rounds_displace {body : Cursor → List Cursor}
    (hbody : ∀ cursor, body (cursor.displace n) = (body cursor).map (displace n)) (greedy : Bool) (fuel : Nat)
    (visited : List Nat) (tasks : List Task) :
    rounds body greedy fuel (visited.map (· + n)) (tasks.map (Task.displace n)) =
      (rounds body greedy fuel visited tasks).map (displace n) := by
  fun_induction rounds body greedy fuel visited tasks with
  | case1 => simp [rounds]
  | case2 => simp [rounds]
  | case3 fuel visited cursor tasks ih =>
    rw [List.map_cons, Task.displace, rounds, ih, List.map_cons]
  | case4 fuel visited cursor tasks hvisited ih =>
    rw [List.map_cons, Task.displace, rounds, if_pos (by simpa [displace] using hvisited), ih]
  | case5 fuel visited cursor tasks hnew next ordered ih =>
    have hnext : (body (cursor.displace n)).map Task.visit = next.map (Task.displace n) := by
      rw [hbody, List.map_map, List.map_map]
      rfl
    rw [List.map_cons, Task.displace, rounds, if_neg (by simpa [displace] using hnew)]
    dsimp only
    rw [hnext, ← ih]
    cases greedy <;> simp [ordered, Task.displace, displace]

theorem remember_displace {cursor : Cursor} {taken before : Text} {origin : Nat}
    (hseen : cursor.seen = taken.reverse ++ before) (hpos : cursor.pos = origin + taken.length) (label : Group) :
    (cursor.displace n).remember label (origin + n) = (cursor.remember label origin).displace n := by
  have hcount : cursor.pos + n - (origin + n) = taken.reverse.length := by
    rw [List.length_reverse]
    omega
  have hcount' : cursor.pos - origin = taken.reverse.length := by
    rw [List.length_reverse]
    omega
  simp only [remember, displace, displaceGroups, List.map_cons, hcount, hcount', hseen, List.append_assoc,
    List.take_left']

end Cursor

namespace Pattern

open Cursor

/-- Whether nothing depends on where the text or its lines begin. -/
def isPlaceless : Pattern → Bool
  | .assert condition => condition != .textStart && condition != .lineStart
  | .seq first second | .alt first second => first.isPlaceless && second.isPlaceless
  | .star body _ | .group _ body => body.isPlaceless
  | .empty | .one _ | .run .. => true

variable {p : Pattern} {n : Nat}

/-- From a place behind spaces a pattern leads to the places behind the spaces. -/
theorem advance_displace (hp : p.isPlaceless = true) (cursor : Cursor) :
    p.advance (cursor.displace n) = (p.advance cursor).map (displace n) := by
  induction p generalizing cursor with
  | empty => rfl
  | one cls =>
    obtain ⟨pos, seen, rest, groups⟩ := cursor
    cases rest with
    | nil => rfl
    | cons c rest =>
      simp only [advance, displace]
      split
      · simp [displace, Nat.add_right_comm]
      · rfl
  | run cls greedy =>
    have hplaces := @runFrom_displace n cls cursor.groups cursor.pos cursor.seen cursor.rest
    simp only [advance, displace, hplaces]
    split
    · rw [List.map_reverse]
    · rfl
  | assert condition =>
    have hholds := @holds_displace n condition (by simpa [isPlaceless] using hp) cursor
    simp only [advance, hholds]
    split <;> rfl
  | seq first second ihfirst ihsecond =>
    obtain ⟨hfirst, hsecond⟩ := Bool.and_eq_true_iff.1 hp
    have hreach : (first.advance (cursor.displace n)).flatMap second.advance =
        ((first.advance cursor).flatMap second.advance).map (displace n) := by
      simp only [ihfirst hfirst, List.flatMap_map, List.map_flatMap, ihsecond hsecond]
    rw [advance, hreach, advance]
    exact distinct_displace [] _
  | alt first second ihfirst ihsecond =>
    obtain ⟨hfirst, hsecond⟩ := Bool.and_eq_true_iff.1 hp
    rw [advance, ihfirst hfirst, ihsecond hsecond, ← List.map_append, advance]
    exact distinct_displace [] _
  | star body greedy ih => exact rounds_displace (fun place => ih hp place) greedy _ [] [.visit cursor]
  | group label body ih =>
    rw [advance, ih hp, advance, List.map_map, List.map_map]
    refine List.map_congr_left fun place hmem => ?_
    obtain ⟨taken, -, hseen, hpos⟩ := (matches_of_mem_advance hmem).exists_taken
    exact remember_displace hseen hpos label

/-- Whether something solid has to follow the white space that the pattern begins with. -/
def leavesSpaces : Pattern → Bool
  | .seq first second => first.leavesSpaces || (second.opensSolid && second.takesVisible)
  | _ => false

/-- Whether the pattern begins with any white space, and nothing that follows goes on from within it. -/
def absorbsSpaces : Pattern → Bool
  | .run .blank greedy => greedy
  | .seq first second => first.absorbsSpaces && (second.isPlaceless && (first.leavesSpaces || second.opensSolid))
  | _ => false

/-- What begins with something solid takes nothing where white space follows. -/
theorem startsBlank_of_mem_advance (hp : p.opensSolid = true) {start stop : Cursor}
    (hstart : Text.startsWhere isBlank start.rest = true) (hmem : stop ∈ p.advance start) :
    Text.startsWhere isBlank stop.rest = true ∧ p.takesVisible = false := by
  have hmatches := matches_of_mem_advance hmem
  obtain ⟨taken, hrest, -, -⟩ := hmatches.exists_taken
  have htakes : Takes p taken := ⟨start, stop, hmatches, hrest⟩
  rcases htakes.eq_nil_or_startsSolid hp with rfl | ⟨c, more, rfl, hc⟩
  · rw [hrest, List.nil_append] at hstart
    exact ⟨hstart, Bool.eq_false_iff.2 fun hvisible => htakes.ne_nil hvisible rfl⟩
  · rw [hrest] at hstart
    exact absurd hstart (Bool.eq_false_iff.1 hc)

theorem exists_distinct_append (visited : List Nat) (cursors others : List Cursor) :
    ∃ visited', Cursor.distinct visited (cursors ++ others) =
      Cursor.distinct visited cursors ++ Cursor.distinct visited' others := by
  induction cursors generalizing visited with
  | nil => exact ⟨visited, rfl⟩
  | cons cursor cursors ih =>
    rw [List.cons_append, distinct, distinct]
    split
    · exact ih visited
    · obtain ⟨visited', hrest⟩ := ih (cursor.pos :: visited)
      exact ⟨visited', by rw [hrest, List.cons_append]⟩

theorem runFrom_solid {code : Text} (hcode : Text.StartsSolid code) (groups : List (Group × Capture)) (pos : Nat)
    (seen : Text) : Cursor.runFrom .blank groups pos seen code = [⟨pos, seen, code, groups⟩] := by
  obtain ⟨c, rest, rfl, hc⟩ := hcode
  rw [runFrom, if_neg (by simp [CharClass.contains, hc])]

/-- White space leads to every place among spaces before it leads on. -/
theorem exists_runFrom_spaces {code : Text} (hcode : Text.StartsSolid code) (groups : List (Group × Capture))
    (n pos : Nat) (seen : Text) :
    ∃ among, Cursor.runFrom .blank groups pos seen (Text.spaces n ++ code) =
        among ++ [⟨pos + n, Text.spaces n ++ seen, code, groups⟩] ∧
      ∀ cursor ∈ among, Text.startsWhere isBlank cursor.rest = true := by
  induction n generalizing pos seen with
  | zero => exact ⟨[], runFrom_solid hcode groups pos seen, List.forall_mem_nil _⟩
  | succ n ih =>
    obtain ⟨among, hrun, hamong⟩ := ih (pos + 1) (' ' :: seen)
    refine ⟨⟨pos, seen, ' ' :: (Text.spaces n ++ code), groups⟩ :: among, ?_, List.forall_mem_cons.2 ⟨rfl, hamong⟩⟩
    have hseen : Text.spaces (n + 1) ++ seen = Text.spaces n ++ ' ' :: seen := by
      rw [Text.spaces, List.replicate_succ', List.append_assoc]
      rfl
    change runFrom .blank groups pos seen (' ' :: (Text.spaces n ++ code)) = _
    rw [runFrom, if_pos (by decide), hrun, hseen, Nat.add_right_comm]
    rfl

/-- With spaces before a text the places behind them come first; the others are among the spaces, if there are any. -/
theorem exists_advance_spaces {code : Text} (hcode : Text.StartsSolid code) (n : Nat) (hp : p.absorbsSpaces = true) :
    ∃ among, p.advance (.start (Text.spaces n ++ code)) = (p.advance (.start code)).map (displace n) ++ among ∧
      (∀ cursor ∈ among, Text.startsWhere isBlank cursor.rest = true) ∧ (p.leavesSpaces = true → among = []) := by
  induction p with
  | run cls greedy =>
    obtain ⟨rfl, rfl⟩ : cls = .blank ∧ greedy = true := by
      cases cls <;> simp_all [absorbsSpaces]
    obtain ⟨among, hrun, hamong⟩ := exists_runFrom_spaces hcode [] n 0 []
    refine ⟨among.reverse, ?_, fun cursor hmem => hamong cursor (List.mem_reverse.1 hmem), nofun⟩
    simp only [advance, Cursor.start, if_true, hrun, runFrom_solid hcode, List.reverse_append, List.reverse_singleton,
      List.map_singleton, displace, displaceGroups, List.map_nil, List.append_nil, List.nil_append]
  | seq first second ihfirst _ =>
    simp only [absorbsSpaces, Bool.and_eq_true, Bool.or_eq_true] at hp
    obtain ⟨hfirst, hsecond, hleaves⟩ := hp
    obtain ⟨among, hadvance, hamong, hnone⟩ := ihfirst hfirst
    have hmoved : ((first.advance (.start code)).map (displace n)).flatMap second.advance =
        ((first.advance (.start code)).flatMap second.advance).map (displace n) := by
      simp only [List.flatMap_map, List.map_flatMap, advance_displace hsecond]
    obtain ⟨visited, hdistinct⟩ := exists_distinct_append []
      (((first.advance (.start code)).flatMap second.advance).map (displace n)) (among.flatMap second.advance)
    refine ⟨Cursor.distinct visited (among.flatMap second.advance), ?_, ?_, ?_⟩
    · rw [advance, hadvance, List.flatMap_append, hmoved, hdistinct]
      exact congrArg (· ++ _) (distinct_displace [] _)
    · intro cursor hmem
      obtain ⟨place, hplace, hcursor⟩ := List.mem_flatMap.1 (mem_of_mem_distinct hmem)
      rcases hleaves with hleaves | hopens
      · rw [hnone hleaves] at hplace
        cases hplace
      · exact (startsBlank_of_mem_advance hopens (hamong place hplace) hcursor).1
    · intro hleaves
      have hempty : among.flatMap second.advance = [] := by
        simp only [leavesSpaces, Bool.or_eq_true, Bool.and_eq_true] at hleaves
        rcases hleaves with hleaves | ⟨hopens, hvisible⟩
        · rw [hnone hleaves]
          rfl
        · refine List.flatMap_eq_nil_iff.2 fun place hplace => List.eq_nil_iff_forall_not_mem.2 fun cursor hcursor => ?_
          have hnot := (startsBlank_of_mem_advance hopens (hamong place hplace) hcursor).2
          rw [hvisible] at hnot
          cases hnot
      rw [hempty]
      rfl
  | empty | one | assert | alt | star | group => cases hp

/-- Spaces before a text that begins with something solid move the match behind them. -/
theorem matchStart?_spaces {code : Text} (hcode : Text.StartsSolid code) (n : Nat) (hp : p.absorbsSpaces = true)
    (hleaves : p.leavesSpaces = true) :
    p.matchStart? (Text.spaces n ++ code) = (p.matchStart? code).map (displace n) := by
  obtain ⟨among, hadvance, -, hnone⟩ := exists_advance_spaces hcode n hp
  rw [matchStart?, hadvance, hnone hleaves, List.append_nil, List.head?_map]
  rfl

end Pattern

end Outline
