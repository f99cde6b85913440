import Mathlib.Logic.Relation
import Outline.Batch
import Outline.Proofs.Session.Interleaving

namespace Outline

/-- Whether a worker is at the scan: it has begun and has no outcome yet. -/
def Stage.isUnderWay : Stage → Bool
  | .called | .finished _ => false
  | .prepared _ | .missed _ | .performed _ _ => true

/-- How many steps the scan may still take. -/
def Stage.stepsLeft : Stage → Nat
  | .called => 4
  | .prepared _ => 3
  | .missed _ => 2
  | .performed _ _ => 1
  | .finished _ => 0

theorem Stage.stepsLeft_eq_zero_iff {stage : Stage} :
    stage.stepsLeft = 0 ↔ ∃ outcome, stage = .finished outcome := by
  cases stage <;> simp [stepsLeft]

theorem Stage.not_isUnderWay_of_stepsLeft {stage : Stage} (hdone : stage.stepsLeft = 0) :
    stage.isUnderWay = false := by
  obtain ⟨outcome, rfl⟩ := stepsLeft_eq_zero_iff.1 hdone
  rfl

/-- The outcome of a scan that has one. -/
def Call.outcome? (call : Call) : Option (Except Fault FileOutline) :=
  match call.stage with
  | .finished outcome => some outcome
  | _ => none

namespace Site

/-- How many workers are at work. -/
def busy (site : Site) : Nat :=
  site.calls.countP fun call => call.stage.isUnderWay

/-- How many steps the scans may still take together. -/
def stepsLeft (site : Site) : Nat :=
  site.calls.foldr (fun call left => call.stage.stepsLeft + left) 0

/-- A site where the files of a batch wait. -/
def waiting (cache : Cache) (sources : List Source) : Site :=
  ⟨cache, sources.map fun source => ⟨source, .called⟩⟩

/-- The outcomes that there are, in the order of the files. -/
def outcomes (site : Site) : List (Except Fault FileOutline) :=
  site.calls.filterMap Call.outcome?

/-- What a site hands out: the outlines and faults of its files. -/
def batch (site : Site) : Batch :=
  .ofOutcomes site.outcomes

end Site

namespace Session

/-- A step of one of the workers: it goes on with the scan that it is at, or, as one that is free, begins the scan
of a file that waits. -/
inductive Works (session : Session) (workers : Nat) (site : Site) : Site → Prop where
  | goesOn {position : Nat} {call : Call} (hcall : site.calls[position]? = some call)
      (hstage : call.stage.isUnderWay = true) : Works session workers site (session.advance site (.step position))
  | begins {position : Nat} {call : Call} (hcall : site.calls[position]? = some call)
      (hstage : call.stage = .called) (hfree : site.busy < workers) :
      Works session workers site (session.advance site (.step position))

/-- The workers have been given the files and have come to a site where none of them finds anything to do. -/
structure Finishes (session : Session) (workers : Nat) (cache : Cache) (sources : List Source) (site : Site) :
    Prop where
  reached : Relation.ReflTransGen (session.Works workers) (.waiting cache sources) site
  idle : ∀ after, ¬ session.Works workers site after

variable {session : Session} {workers : Nat} {site after : Site}

/-- Whichever of the two a worker does, it takes one step of a scan that has no outcome. -/
theorem Works.exists_step (hworks : session.Works workers site after) :
    ∃ position call, site.calls[position]? = some call ∧ 0 < call.stage.stepsLeft ∧
      after = ⟨(session.next site.cache call.source call.stage).2,
        site.calls.set position ⟨call.source, (session.next site.cache call.source call.stage).1⟩⟩ := by
  cases hworks with
  | @goesOn position call hcall hstage =>
    refine ⟨position, call, hcall, ?_, advance_step_some hcall⟩
    cases hcase : call.stage <;> simp_all [Stage.isUnderWay, Stage.stepsLeft]
  | @begins position call hcall hstage _ =>
    refine ⟨position, call, hcall, ?_, advance_step_some hcall⟩
    rw [hstage]
    exact Nat.zero_lt_succ 3

section Progress

theorem stepsLeft_next_lt (cache : Cache) (source : Source) {stage : Stage} (hleft : 0 < stage.stepsLeft) :
    (session.next cache source stage).1.stepsLeft < stage.stepsLeft := by
  cases stage with
  | called => rw [next]; cases session.prepare source <;> simp [Stage.stepsLeft]
  | prepared job => rw [next]; cases session.kept? cache job <;> simp [Stage.stepsLeft]
  | missed job => rw [next]; cases session.perform job <;> simp [Stage.stepsLeft]
  | performed job file => exact Nat.zero_lt_one
  | finished outcome => exact absurd hleft (Nat.lt_irrefl 0)

theorem stepsLeft_set_lt {cache cache' : Cache} {calls : List Call} {position : Nat} {call moved : Call}
    (hcall : calls[position]? = some call) (hless : moved.stage.stepsLeft < call.stage.stepsLeft) :
    Site.stepsLeft ⟨cache', calls.set position moved⟩ < Site.stepsLeft ⟨cache, calls⟩ := by
  simp only [Site.stepsLeft]
  induction calls generalizing position with
  | nil => cases hcall
  | cons first rest ih =>
    cases position with
    | zero =>
      obtain rfl := Option.some.inj hcall
      exact Nat.add_lt_add_right hless _
    | succ position => exact Nat.add_lt_add_left (ih hcall) _

theorem Works.stepsLeft_lt (hworks : session.Works workers site after) : after.stepsLeft < site.stepsLeft := by
  obtain ⟨position, call, hcall, hleft, rfl⟩ := hworks.exists_step
  apply stepsLeft_set_lt hcall
  exact session.stepsLeft_next_lt site.cache call.source hleft

/-- There is no way to proceed for ever. -/
theorem wellFounded_works (session : Session) (workers : Nat) :
    WellFounded fun after site => session.Works workers site after :=
  Subrelation.wf (fun hworks => Works.stepsLeft_lt hworks) (measure Site.stepsLeft).wf

/-- Where no worker finds anything to do, every scan has its outcome. -/
theorem stepsLeft_eq_zero_of_idle (hworkers : 0 < workers) (hidle : ∀ after, ¬ session.Works workers site after) :
    ∀ call ∈ site.calls, call.stage.stepsLeft = 0 := by
  have hnone : ∀ call ∈ site.calls, call.stage.isUnderWay = false := by
    intro call hmem
    obtain ⟨position, hcall⟩ := List.mem_iff_getElem?.1 hmem
    cases hstage : call.stage.isUnderWay with
    | false => rfl
    | true => exact absurd (.goesOn hcall hstage) (hidle _)
  have hfree : site.busy = 0 := List.countP_eq_zero.2 fun call hmem => by simp [hnone call hmem]
  intro call hmem
  obtain ⟨position, hcall⟩ := List.mem_iff_getElem?.1 hmem
  have hunder := hnone call hmem
  cases hstage : call.stage with
  | called => exact absurd (.begins hcall hstage (by omega)) (hidle _)
  | finished outcome => rfl
  | _ => rw [hstage] at hunder; cases hunder

theorem not_works_of_stepsLeft_eq_zero (hdone : ∀ call ∈ site.calls, call.stage.stepsLeft = 0) (after : Site) :
    ¬ session.Works workers site after := by
  intro hworks
  obtain ⟨position, call, hcall, hleft, _⟩ := hworks.exists_step
  have := hdone call (List.mem_of_getElem? hcall)
  omega

end Progress

section OneByOne

variable {cache : Cache} {source : Source} {earlier later : List Call}

/-- The site at which one scan stands at a stage between scans that it does not touch. -/
def amid (earlier later : List Call) (cache : Cache) (source : Source) (stage : Stage) : Site :=
  ⟨cache, earlier ++ ⟨source, stage⟩ :: later⟩

theorem getElem?_amid (stage : Stage) :
    (amid earlier later cache source stage).calls[earlier.length]? = some ⟨source, stage⟩ := by
  rw [amid, List.getElem?_append_right (Nat.le_refl _), Nat.sub_self, List.getElem?_cons_zero]

theorem advance_amid (stage : Stage) :
    session.advance (amid earlier later cache source stage) (.step earlier.length) =
      amid earlier later (session.next cache source stage).2 source (session.next cache source stage).1 := by
  rw [advance_step_some (getElem?_amid stage), amid, List.set_append_right _ _ (Nat.le_refl _), Nat.sub_self,
    List.set_cons_zero]
  rfl

theorem works_amid {stage : Stage} (hstage : stage.isUnderWay = true) :
    session.Works workers (amid earlier later cache source stage)
      (amid earlier later (session.next cache source stage).2 source (session.next cache source stage).1) := by
  rw [← advance_amid]
  exact .goesOn (getElem?_amid stage) hstage

/-- A free worker can carry the scan of a file through on its own, and that is a `scan`. -/
theorem works_scan (cache : Cache) (source : Source) (hworkers : 0 < workers)
    (hearlier : ∀ call ∈ earlier, call.stage.isUnderWay = false)
    (hlater : ∀ call ∈ later, call.stage.isUnderWay = false) :
    Relation.ReflTransGen (session.Works workers) (amid earlier later cache source .called)
      (amid earlier later (session.scan cache source).2 source (.finished (session.scan cache source).1)) := by
  have hfree : (amid earlier later cache source .called).busy = 0 := by
    refine List.countP_eq_zero.2 fun call hmem => ?_
    rcases List.mem_append.1 hmem with hmem | hmem
    · simp [hearlier call hmem]
    rcases List.mem_cons.1 hmem with rfl | hmem
    · simp [Stage.isUnderWay]
    · simp [hlater call hmem]
  have hbegins : session.Works workers (amid earlier later cache source .called)
      (amid earlier later (session.next cache source .called).2 source (session.next cache source .called).1) := by
    rw [← advance_amid]
    exact .begins (getElem?_amid _) rfl (by omega)
  refine .head hbegins ?_
  rw [next, scan]
  cases session.prepare source with
  | error fault => exact .refl
  | ok job =>
    refine .head (works_amid rfl) ?_
    rw [next]
    dsimp only
    cases session.kept? cache job with
    | some file => exact .refl
    | none =>
      refine .head (works_amid rfl) ?_
      rw [next]
      dsimp only
      cases session.perform job with
      | error fault => exact .refl
      | ok file => exact .single (works_amid rfl)

theorem works_scanAll (cache : Cache) (sources : List Source) (hworkers : 0 < workers)
    (hearlier : ∀ call ∈ earlier, call.stage.stepsLeft = 0) :
    ∃ calls, Relation.ReflTransGen (session.Works workers)
        ⟨cache, earlier ++ (Site.waiting cache sources).calls⟩ ⟨(session.scanAll cache sources).2, earlier ++ calls⟩ ∧
      (∀ call ∈ calls, call.stage.stepsLeft = 0) ∧
      calls.filterMap Call.outcome? = (session.scanAll cache sources).1 := by
  induction sources generalizing cache earlier with
  | nil => exact ⟨[], .refl, fun _ hmem => absurd hmem List.not_mem_nil, rfl⟩
  | cons source rest ih =>
    let done : Call := ⟨source, .finished (session.scan cache source).1⟩
    have hdone : ∀ call ∈ earlier ++ [done], call.stage.stepsLeft = 0 := by
      intro call hmem
      rcases List.mem_append.1 hmem with hmem | hmem
      · exact hearlier call hmem
      · rw [List.mem_singleton.1 hmem]
        rfl
    have hwaiting : ∀ call ∈ (Site.waiting cache rest).calls, call.stage.isUnderWay = false := by
      intro call hmem
      obtain ⟨_, _, rfl⟩ := List.mem_map.1 hmem
      rfl
    have hfirst := session.works_scan cache source hworkers
      (fun call hmem => Stage.not_isUnderWay_of_stepsLeft (hearlier call hmem)) hwaiting
    obtain ⟨calls, hrest, hall, houtcomes⟩ := ih (session.scan cache source).2 hdone
    refine ⟨done :: calls, hfirst.trans ?_, ?_, ?_⟩
    · simpa [amid, Site.waiting, scanAll, done] using hrest
    · intro call hmem
      rcases List.mem_cons.1 hmem with rfl | hmem
      · rfl
      · exact hall call hmem
    · rw [scanAll, ← houtcomes]
      rfl

end OneByOne

/-- Scanning one file after the other is a way for the workers to proceed. -/
theorem exists_finishes_scanAll (session : Session) (hworkers : 0 < workers) (cache : Cache)
    (sources : List Source) :
    ∃ site, session.Finishes workers cache sources site ∧ site.outcomes = (session.scanAll cache sources).1 ∧
      site.cache = (session.scanAll cache sources).2 := by
  obtain ⟨calls, hreached, hdone, houtcomes⟩ :=
    session.works_scanAll cache sources hworkers fun _ hmem => absurd hmem List.not_mem_nil
  exact ⟨_, ⟨hreached, not_works_of_stepsLeft_eq_zero hdone⟩, houtcomes, rfl⟩

end Session

end Outline
