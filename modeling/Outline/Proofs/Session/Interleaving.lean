import Outline.Session.Basic

namespace Outline

/-- How far the scan of a file has come. -/
inductive Stage where
  /-- Nothing is done yet. -/
  | called
  /-- The text and the language are known. -/
  | prepared (job : Job)
  /-- No result was kept when the scan asked for one. -/
  | missed (job : Job)
  /-- The scanner has worked. -/
  | performed (job : Job) (file : FileOutline)
  /-- The scan has an outcome. -/
  | finished (outcome : Except Fault FileOutline)

/-- The scan of a file that has begun. -/
structure Call where
  source : Source
  stage : Stage

/-- The scans that have begun, in the order of their beginning, and the results that they share. -/
structure Site where
  cache : Cache
  calls : List Call

/-- What happens next at a site: the scan of a file begins, or the scan at a position takes a step. -/
inductive Event where
  | call (source : Source)
  | step (position : Nat)

namespace Session

/-- The next step of a scan, with the results that are kept after it. -/
def next (session : Session) (cache : Cache) (source : Source) : Stage → Stage × Cache
  | .called =>
    match session.prepare source with
    | .error fault => (.finished (.error fault), cache)
    | .ok job => (.prepared job, cache)
  | .prepared job =>
    match session.kept? cache job with
    | some file => (.finished (.ok file), cache)
    | none => (.missed job, cache)
  | .missed job =>
    match session.perform job with
    | .error fault => (.finished (.error fault), cache)
    | .ok file => (.performed job file, cache)
  | .performed job file =>
    let kept := session.remember cache job file
    (.finished (.ok kept.1), kept.2)
  | .finished outcome => (.finished outcome, cache)

/-- What an event makes of a site. A step of a scan that has not begun or has an outcome changes nothing. -/
def advance (session : Session) (site : Site) : Event → Site
  | .call source => ⟨site.cache, site.calls ++ [⟨source, .called⟩]⟩
  | .step position =>
    match site.calls[position]? with
    | none => site
    | some call =>
      let after := session.next site.cache call.source call.stage
      ⟨after.2, site.calls.set position ⟨call.source, after.1⟩⟩

theorem advance_step_none {session : Session} {site : Site} {position : Nat}
    (hcall : site.calls[position]? = none) : session.advance site (.step position) = site := by
  rw [advance, hcall]

theorem advance_step_some {session : Session} {site : Site} {position : Nat} {call : Call}
    (hcall : site.calls[position]? = some call) :
    session.advance site (.step position) =
      ⟨(session.next site.cache call.source call.stage).2,
        site.calls.set position ⟨call.source, (session.next site.cache call.source call.stage).1⟩⟩ := by
  rw [advance, hcall]

/-- A site where nothing has been kept before, after some events. -/
def run (session : Session) (events : List Event) : Site :=
  events.foldl session.advance ⟨.empty, []⟩

theorem run_append (session : Session) (events more : List Event) :
    session.run (events ++ more) = more.foldl session.advance (session.run events) :=
  List.foldl_append

section Alone

variable (session : Session) (cache : Cache) (calls : List Call) (source : Source) (stage : Stage)

theorem advance_last :
    session.advance ⟨cache, calls ++ [⟨source, stage⟩]⟩ (.step calls.length) =
      ⟨(session.next cache source stage).2, calls ++ [⟨source, (session.next cache source stage).1⟩]⟩ := by
  have hlast : (calls ++ [(⟨source, stage⟩ : Call)])[calls.length]? = some ⟨source, stage⟩ := by
    rw [List.getElem?_append_right (Nat.le_refl _), Nat.sub_self]
    rfl
  rw [advance_step_some hlast, List.set_append_right _ _ (Nat.le_refl _), Nat.sub_self, List.set_cons_zero]

/-- Steps that a scan takes when it has an outcome change nothing. -/
theorem advance_last_finished (outcome : Except Fault FileOutline) (count : Nat) :
    (List.replicate count (.step calls.length)).foldl session.advance
        ⟨cache, calls ++ [⟨source, .finished outcome⟩]⟩ =
      ⟨cache, calls ++ [⟨source, .finished outcome⟩]⟩ := by
  induction count with
  | zero => rfl
  | succ count ih => rw [List.replicate_succ, List.foldl_cons, advance_last, next, ih]

/-- A scan that takes its four steps without interruption is a `scan`. -/
theorem advance_alone :
    (Event.call source :: List.replicate 4 (.step calls.length)).foldl session.advance ⟨cache, calls⟩ =
      ⟨(session.scan cache source).2, calls ++ [⟨source, .finished (session.scan cache source).1⟩]⟩ := by
  rw [List.foldl_cons, advance, List.replicate_succ, List.foldl_cons, advance_last, next, scan]
  cases session.prepare source with
  | error fault => exact session.advance_last_finished cache calls source _ 3
  | ok job =>
    dsimp only
    rw [List.replicate_succ, List.foldl_cons, advance_last, next]
    cases session.kept? cache job with
    | some file => exact session.advance_last_finished cache calls source _ 2
    | none =>
      dsimp only
      rw [List.replicate_succ, List.foldl_cons, advance_last, next]
      cases session.perform job with
      | error fault => exact session.advance_last_finished cache calls source _ 1
      | ok file =>
        dsimp only
        rw [List.replicate_succ, List.foldl_cons, advance_last, next]
        rfl

end Alone

end Session

end Outline
