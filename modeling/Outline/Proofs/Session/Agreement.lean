import Mathlib.Data.Finset.Card
import Outline.Proofs.Session.Interleaving

namespace Outline

namespace Cache

/-- Nothing that is kept in the first is lost or replaced in the second. -/
def Grows (cache after : Cache) : Prop :=
  ∀ key file, cache.find? key = some file → after.find? key = some file

theorem Grows.refl (cache : Cache) : cache.Grows cache :=
  fun _ _ => id

theorem Grows.trans {first second third : Cache} (hfirst : first.Grows second) (hsecond : second.Grows third) :
    first.Grows third :=
  fun key file hkept => hsecond key file (hfirst key file hkept)

theorem grows_add {cache : Cache} {key : CacheKey} (file : FileOutline) (absent : cache.find? key = none) :
    cache.Grows (cache.add key file absent) := by
  intro other found hkept
  rw [find?_add, if_neg]
  · exact hkept
  · rintro rfl
    rw [absent] at hkept
    cases hkept

theorem mem_keys_iff {cache : Cache} {key : CacheKey} :
    key ∈ cache.entries.map Prod.fst ↔ ∃ file, cache.find? key = some file := by
  rw [← Option.isSome_iff_exists, ← Option.ne_none_iff_isSome, ne_eq, find?_eq_none_iff, not_not]

end Cache

namespace Session

variable {session : Session} {cache : Cache} {source : Source} {stage : Stage}

/-- A step keeps no result, or it is the last step of a scan whose key has none yet. -/
theorem next_cases (hcache : session.config.cache = true) (cache : Cache) (source : Source) (stage : Stage) :
    (session.next cache source stage).2 = cache ∨
    ∃ job file, ∃ absent : cache.find? job.key = none, stage = .performed job file ∧
      session.next cache source stage = (.finished (.ok file), cache.add job.key file absent) := by
  cases stage with
  | called =>
    rw [next]
    cases session.prepare source <;> exact .inl rfl
  | prepared job =>
    rw [next]
    cases session.kept? cache job <;> exact .inl rfl
  | missed job =>
    rw [next]
    cases session.perform job <;> exact .inl rfl
  | performed job file =>
    rw [next, remember, if_pos hcache]
    cases hfound : cache.find? job.key with
    | some earlier => exact .inl (by rw [Cache.keep_of_find?_eq_some hfound])
    | none => exact .inr ⟨job, file, hfound, rfl, by rw [Cache.keep_of_find?_eq_none hfound]⟩
  | finished outcome => exact .inl rfl

theorem next_grows (hcache : session.config.cache = true) (cache : Cache) (source : Source) (stage : Stage) :
    cache.Grows (session.next cache source stage).2 := by
  rcases next_cases hcache cache source stage with hsame | ⟨job, file, absent, _, hkeeps⟩
  · rw [hsame]
    exact .refl cache
  · rw [hkeeps]
    exact Cache.grows_add file absent

section Calls

/-- What a scan knows at its stage is so, and the outcome of one that has succeeded is kept. -/
def Sound (session : Session) (cache : Cache) (source : Source) : Stage → Prop
  | .called => True
  | .prepared job => session.prepare source = .ok job
  | .missed job => session.prepare source = .ok job
  | .performed job file => session.prepare source = .ok job ∧ session.perform job = .ok file
  | .finished (.error _) => True
  | .finished (.ok file) => ∃ job, session.prepare source = .ok job ∧ cache.find? job.key = some file

theorem Sound.mono {after : Cache} (h : session.Sound cache source stage) (hgrows : cache.Grows after) :
    session.Sound after source stage := by
  cases stage with
  | finished outcome =>
    cases outcome with
    | error fault => exact trivial
    | ok file =>
      obtain ⟨job, hjob, hkept⟩ := h
      exact ⟨job, hjob, hgrows _ _ hkept⟩
  | _ => exact h

/-- A step of a scan keeps what it knows true. -/
theorem Sound.next (hcache : session.config.cache = true) (h : session.Sound cache source stage) :
    session.Sound (session.next cache source stage).2 source (session.next cache source stage).1 := by
  cases stage with
  | called =>
    rw [Session.next]
    cases hprepare : session.prepare source with
    | error fault => exact trivial
    | ok job => exact hprepare
  | prepared job =>
    rw [Session.next]
    cases hkept : session.kept? cache job with
    | none => exact h
    | some file =>
      rw [kept?, if_pos hcache] at hkept
      exact ⟨job, h, hkept⟩
  | missed job =>
    rw [Session.next]
    cases hperform : session.perform job with
    | error fault => exact trivial
    | ok file => exact ⟨h, hperform⟩
  | performed job file =>
    rw [Session.next, remember, if_pos hcache]
    cases hfound : cache.find? job.key with
    | some earlier =>
      rw [Cache.keep_of_find?_eq_some hfound]
      exact ⟨job, h.1, hfound⟩
    | none =>
      rw [Cache.keep_of_find?_eq_none hfound]
      exact ⟨job, h.1, by rw [Cache.find?_add, if_pos rfl]⟩
  | finished outcome => exact h

end Calls

section Sites

/-- The scan made the result: the scanner turned its text into it, and it is its outcome. -/
def Makes (session : Session) (call : Call) (key : CacheKey) (file : FileOutline) : Prop :=
  (∃ job, session.prepare call.source = .ok job ∧ job.key = key ∧ session.perform job = .ok file) ∧
    call.stage = .finished (.ok file)

/-- Every scan of the site is sound, and every result that is kept was made by one of them. -/
structure Consistent (session : Session) (site : Site) : Prop where
  sound : ∀ call ∈ site.calls, session.Sound site.cache call.source call.stage
  made : ∀ key file, site.cache.find? key = some file → ∃ call ∈ site.calls, session.Makes call key file

theorem consistent_empty (session : Session) : session.Consistent ⟨.empty, []⟩ where
  sound := fun _ hmem => absurd hmem List.not_mem_nil
  made := fun key file hkept => by
    rw [Cache.find?_empty] at hkept
    cases hkept

/-- A scan with an outcome stays as it is. -/
theorem advance_finished {site : Site} {position : Nat} {call : Call} {outcome : Except Fault FileOutline}
    (hcall : site.calls[position]? = some call) (hfinished : call.stage = .finished outcome) (event : Event) :
    (session.advance site event).calls[position]? = some call := by
  obtain ⟨hlt, _⟩ := List.getElem?_eq_some_iff.1 hcall
  cases event with
  | call source =>
    rw [advance, List.getElem?_append_left hlt]
    exact hcall
  | step moved =>
    cases hmoved : site.calls[moved]? with
    | none => rwa [advance_step_none hmoved]
    | some other =>
      rw [advance_step_some hmoved, List.getElem?_set]
      split
      · next heq =>
        subst heq
        obtain rfl := Option.some.inj (hcall.symm.trans hmoved)
        rw [if_pos hlt, hfinished, next, ← hfinished]
      · exact hcall

theorem foldl_finished (session : Session) {position : Nat} {call : Call} {outcome : Except Fault FileOutline}
    (events : List Event) {site : Site} (hcall : site.calls[position]? = some call) (hfinished : call.stage = .finished outcome) :
    (events.foldl session.advance site).calls[position]? = some call := by
  induction events generalizing site with
  | nil => exact hcall
  | cons event events ih =>
    rw [List.foldl_cons]
    exact ih (advance_finished hcall hfinished event)

theorem advance_grows (hcache : session.config.cache = true) (site : Site) (event : Event) :
    site.cache.Grows (session.advance site event).cache := by
  cases event with
  | call source => exact .refl _
  | step position =>
    cases hcall : site.calls[position]? with
    | none =>
      rw [advance_step_none hcall]
      exact .refl _
    | some call =>
      rw [advance_step_some hcall]
      exact next_grows hcache _ _ _

theorem foldl_grows (hcache : session.config.cache = true) (events : List Event) (site : Site) :
    site.cache.Grows (events.foldl session.advance site).cache := by
  induction events generalizing site with
  | nil => exact .refl _
  | cons event events ih =>
    rw [List.foldl_cons]
    exact (advance_grows hcache site event).trans (ih _)

/-- An event keeps a site consistent. -/
theorem Consistent.advance (hcache : session.config.cache = true) {site : Site} (h : session.Consistent site)
    (event : Event) : session.Consistent (session.advance site event) := by
  have hgrows := advance_grows hcache site event
  -- the maker of an earlier result has its outcome, so no event can change it
  have hearlier : ∀ key file, site.cache.find? key = some file →
      ∃ call ∈ (session.advance site event).calls, session.Makes call key file := by
    intro key file hkept
    obtain ⟨call, hmem, hmakes⟩ := h.made key file hkept
    obtain ⟨position, hcall⟩ := List.mem_iff_getElem?.1 hmem
    exact ⟨call, List.mem_of_getElem? (advance_finished hcall hmakes.2 event), hmakes⟩
  cases event with
  | call source =>
    refine ⟨fun call hmem => ?_, hearlier⟩
    rcases List.mem_append.1 hmem with hmem | hmem
    · exact h.sound call hmem
    · obtain rfl := List.mem_singleton.1 hmem
      exact trivial
  | step position =>
    cases hcall : site.calls[position]? with
    | none => rwa [advance_step_none hcall]
    | some call =>
      have hsound := h.sound call (List.mem_of_getElem? hcall)
      rw [advance_step_some hcall] at hgrows hearlier ⊢
      refine ⟨fun other hmem => ?_, fun key file hkept => ?_⟩
      · rcases List.mem_or_eq_of_mem_set hmem with hmem | rfl
        · exact (h.sound other hmem).mono hgrows
        · exact hsound.next hcache
      rcases next_cases hcache site.cache call.source call.stage with hsame | ⟨job, made, absent, hstage, hkeeps⟩
      · dsimp only at hkept
        rw [hsame] at hkept
        exact hearlier key file hkept
      · dsimp only at hkept
        rw [hkeeps, Cache.find?_add] at hkept
        split at hkept
        · next hkey =>
          obtain rfl := Option.some.inj hkept
          obtain ⟨hlt, _⟩ := List.getElem?_eq_some_iff.1 hcall
          rw [hstage] at hsound
          refine ⟨_, List.mem_set hlt _, ⟨job, hsound.1, hkey, hsound.2⟩, ?_⟩
          rw [hkeeps]
        · exact hearlier key file hkept

theorem consistent_run (hcache : session.config.cache = true) (events : List Event) :
    session.Consistent (session.run events) := by
  have hfold : ∀ site, session.Consistent site → session.Consistent (events.foldl session.advance site) := by
    induction events with
    | nil => exact fun _ h => h
    | cons event events ih => exact fun site h => ih _ (h.advance hcache event)
  exact hfold _ (consistent_empty session)

end Sites

end Session

/-- The outline that a scan has ended with. -/
def Call.file? (call : Call) : Option FileOutline :=
  match call.stage with
  | .finished (.ok file) => some file
  | _ => none

theorem Call.file?_eq_some_iff {call : Call} {file : FileOutline} :
    call.file? = some file ↔ call.stage = .finished (.ok file) := by
  unfold file?
  split
  · next found hstage =>
    rw [hstage, Option.some.injEq, Stage.finished.injEq, Except.ok.injEq]
  · next hother =>
    constructor
    · intro h
      cases h
    · intro hstage
      exact absurd hstage (hother file)

namespace Session

/-- The key under which the outline of a file is kept. -/
def keyOf? (session : Session) (source : Source) : Option CacheKey :=
  match session.prepare source with
  | .error _ => none
  | .ok job => some job.key

/-- The keys of the scans that have succeeded at a site. -/
def successes (session : Session) (site : Site) : List CacheKey :=
  site.calls.filterMap fun call => call.file?.bind fun _ => session.keyOf? call.source

variable {session : Session} {site : Site}

theorem keyOf?_of_prepare {source : Source} {job : Job} (hjob : session.prepare source = .ok job) :
    session.keyOf? source = some job.key := by
  rw [keyOf?, hjob]

/-- The outcome of a scan that has succeeded is kept under its key. -/
theorem Consistent.find?_of_file? (h : session.Consistent site) {call : Call} (hmem : call ∈ site.calls)
    {file : FileOutline} (hfile : call.file? = some file) :
    ∃ key, session.keyOf? call.source = some key ∧ site.cache.find? key = some file := by
  have hsound := h.sound call hmem
  rw [Call.file?_eq_some_iff.1 hfile] at hsound
  obtain ⟨job, hjob, hkept⟩ := hsound
  exact ⟨job.key, keyOf?_of_prepare hjob, hkept⟩

/-- The keys of the results that are kept are those of the scans that have succeeded. -/
theorem Consistent.mem_successes_iff (h : session.Consistent site) {key : CacheKey} :
    key ∈ session.successes site ↔ ∃ file, site.cache.find? key = some file := by
  rw [successes, List.mem_filterMap]
  constructor
  · rintro ⟨call, hmem, hkey⟩
    obtain ⟨file, hfile, hkey⟩ := Option.bind_eq_some_iff.1 hkey
    obtain ⟨_, hkey', hkept⟩ := h.find?_of_file? hmem hfile
    obtain rfl := Option.some.inj (hkey.symm.trans hkey')
    exact ⟨file, hkept⟩
  · rintro ⟨file, hkept⟩
    obtain ⟨call, hmem, ⟨job, hjob, rfl, _⟩, hstage⟩ := h.made key file hkept
    refine ⟨call, hmem, ?_⟩
    rw [Call.file?_eq_some_iff.2 hstage, Option.bind_some, keyOf?_of_prepare hjob]

theorem Consistent.size_eq (h : session.Consistent site) :
    site.cache.size = (session.successes site).toFinset.card := by
  have hkeys : (session.successes site).toFinset = (site.cache.entries.map Prod.fst).toFinset := by
    ext key
    rw [List.mem_toFinset, List.mem_toFinset, h.mem_successes_iff, Cache.mem_keys_iff]
  rw [hkeys, List.toFinset_card_of_nodup site.cache.distinct, List.length_map, Cache.size]

/-- A step of a scan that ends with a fault keeps nothing. -/
theorem cache_step_of_error (hcache : session.config.cache = true) (events more : List Event) {position : Nat}
    {call : Call} {fault : Fault}
    (hcall : (session.run (events ++ .step position :: more)).calls[position]? = some call)
    (hfault : call.stage = .finished (.error fault)) :
    (session.run (events ++ [.step position])).cache = (session.run events).cache := by
  rw [run_append, List.foldl_cons] at hcall
  rw [run_append, List.foldl_cons, List.foldl_nil]
  cases hbefore : (session.run events).calls[position]? with
  | none => rw [advance_step_none hbefore]
  | some before =>
    rw [advance_step_some hbefore] at hcall ⊢
    rcases next_cases hcache (session.run events).cache before.source before.stage with
      hsame | ⟨job, file, absent, _, hkeeps⟩
    · exact hsame
    -- a step that keeps a result is the last one, and its outcome is no fault
    · obtain ⟨hlt, _⟩ := List.getElem?_eq_some_iff.1 hbefore
      rw [hkeeps] at hcall
      have hkept : (⟨(session.run events).cache.add job.key file absent,
          (session.run events).calls.set position ⟨before.source, .finished (.ok file)⟩⟩ : Site).calls[position]? =
            some ⟨before.source, .finished (.ok file)⟩ := List.getElem?_set_self hlt
      have hstays := session.foldl_finished more hkept rfl
      obtain rfl := Option.some.inj (hcall.symm.trans hstays)
      cases hfault

/-- What holds of a site after some events, and whatever happens then. -/
structure Agreement (session : Session) (events : List Event) : Prop where
  /-- Two scans of one key that have succeeded have the same outcome. -/
  file_eq : ∀ first ∈ (session.run events).calls, ∀ second ∈ (session.run events).calls,
    ∀ file file', first.file? = some file → second.file? = some file' →
      session.keyOf? first.source = session.keyOf? second.source → file = file'
  /-- The outcome is what the scanner makes of the text of a scan of that key. -/
  performed : ∀ call ∈ (session.run events).calls, ∀ file, call.file? = some file →
    ∃ maker ∈ (session.run events).calls, ∃ job, session.prepare maker.source = .ok job ∧
      session.keyOf? call.source = some job.key ∧ session.perform job = .ok file
  /-- A result that is kept stays. -/
  stays : ∀ key file, (session.run events).cache.find? key = some file →
    ∀ more, (session.run (events ++ more)).cache.find? key = some file
  /-- A scan that ends with a fault keeps nothing in any of its steps. -/
  unchanged : ∀ position more call fault,
    (session.run (events ++ .step position :: more)).calls[position]? = some call →
      call.stage = .finished (.error fault) →
        (session.run (events ++ [.step position])).cache = (session.run events).cache
  /-- There are as many results as keys with a success. -/
  size_eq : (session.run events).cache.size = (session.successes (session.run events)).toFinset.card
  /-- A scan that nothing interrupts is a `scan`. -/
  alone : ∀ source,
    session.run (events ++ .call source :: List.replicate 4 (.step (session.run events).calls.length)) =
      ⟨(session.scan (session.run events).cache source).2, (session.run events).calls ++
        [⟨source, .finished (session.scan (session.run events).cache source).1⟩]⟩

/-- Scans that share their results agree, in whatever order their steps are taken. Assumed is only that results are
kept: scans may begin at any time, any number of them may have the same key with different texts, and nothing is
assumed of the scanners. -/
theorem run_agreement (session : Session) (hcache : session.config.cache = true) (events : List Event) :
    session.Agreement events where
  file_eq := by
    intro first hfirst second hsecond file file' hfile hfile' hkeys
    obtain ⟨key, hkey, hkept⟩ := (consistent_run hcache events).find?_of_file? hfirst hfile
    obtain ⟨key', hkey', hkept'⟩ := (consistent_run hcache events).find?_of_file? hsecond hfile'
    obtain rfl := Option.some.inj (hkey.symm.trans (hkeys.trans hkey'))
    exact Option.some.inj (hkept.symm.trans hkept')
  performed := by
    intro call hmem file hfile
    obtain ⟨key, hkey, hkept⟩ := (consistent_run hcache events).find?_of_file? hmem hfile
    obtain ⟨maker, hmaker, ⟨job, hjob, rfl, hperform⟩, _⟩ := (consistent_run hcache events).made key file hkept
    exact ⟨maker, hmaker, job, hjob, hkey, hperform⟩
  stays := by
    intro key file hkept more
    rw [run_append]
    exact foldl_grows hcache more _ key file hkept
  unchanged := fun position more call fault => cache_step_of_error hcache events more
  size_eq := (consistent_run hcache events).size_eq
  alone := by
    intro source
    rw [run_append]
    exact session.advance_alone _ _ source

/-- Three scans of one path begin at the same time with different bytes. The first two miss; the second is the
first to keep its result. The third has bytes that are no text. -/
def race : List Event :=
  [.call ⟨"a.py", [120, 61, 49], none⟩, .call ⟨"a.py", [121, 61, 50], some .python⟩, .call ⟨"a.py", [255], none⟩,
    .step 0, .step 1, .step 0, .step 1, .step 0, .step 1, .step 2, .step 1, .step 0]

/-- Both scans that succeed end with what the scanner made of the second text. -/
theorem run_agreement_race :
    ({ cache := true } : Config).cache = true ∧
      (run ⟨{ cache := true }, .full { cache := true }⟩ race).calls.map
        (fun call => call.file?.map FileOutline.content) = [some ['y', '=', '2'], some ['y', '=', '2'], none] ∧
      Agreement ⟨{ cache := true }, .full { cache := true }⟩ race :=
  ⟨rfl, by decide +kernel, run_agreement ⟨{ cache := true }, .full { cache := true }⟩ rfl race⟩

end Session

end Outline
