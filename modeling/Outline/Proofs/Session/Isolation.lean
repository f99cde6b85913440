import Outline.Proofs.Batch
import Outline.Proofs.Session.Agreement
import Outline.Proofs.Session.Workers

namespace Outline

namespace Cache

/-- The two keep the same results for a path. -/
def AgreesOn (path : String) (cache other : Cache) : Prop :=
  ∀ key : CacheKey, key.path = path → cache.find? key = other.find? key

/-- Every outline is kept under the path that it bears. -/
def Labelled (cache : Cache) : Prop :=
  ∀ key file, cache.find? key = some file → file.path = key.path

theorem fst_keep (cache : Cache) (key : CacheKey) (file : FileOutline) :
    (cache.keep key file).1 = (cache.find? key).getD file := by
  cases hfound : cache.find? key with
  | some earlier => rw [keep_of_find?_eq_some hfound, Option.getD_some]
  | none => rw [keep_of_find?_eq_none hfound, Option.getD_none]

theorem agreesOn_keep {path : String} (cache : Cache) {key : CacheKey} (file : FileOutline) (hpath : key.path ≠ path) :
    (cache.keep key file).2.AgreesOn path cache := by
  intro other hother
  cases hfound : cache.find? key with
  | some earlier => rw [keep_of_find?_eq_some hfound]
  | none =>
    rw [keep_of_find?_eq_none hfound, find?_add, if_neg]
    rintro rfl
    exact hpath hother

end Cache

/-- The stage is one of the scan of that file. -/
def Stage.Concerns (source : Source) : Stage → Prop
  | .called | .finished _ => True
  | .prepared job | .missed job | .performed job _ => job.path = source.path

namespace Session

variable {session : Session} {cache other : Cache} {source : Source} {stage : Stage}

theorem path_of_prepare {job : Job} (hjob : session.prepare source = .ok job) : job.path = source.path := by
  rw [prepare] at hjob
  split at hjob
  · cases hjob
  · dsimp only at hjob
    split at hjob
    · cases hjob
      rfl
    · split at hjob
      · cases hjob
      · cases hjob
        rfl

theorem path_of_perform {job : Job} {file : FileOutline} (hfile : session.perform job = .ok file) :
    file.path = job.path := by
  rw [perform] at hfile
  split at hfile
  · cases hfile
  · next scanner _ =>
    rw [Scanner.outline] at hfile
    cases hfound : scanner.parse session.config.extractImports job.content with
    | error message => rw [hfound] at hfile; cases hfile
    | ok found => rw [hfound] at hfile; cases hfile; rfl

section Frame

theorem kept?_congr {job : Job} (hagree : cache.AgreesOn job.path other) :
    session.kept? cache job = session.kept? other job := by
  rw [kept?, kept?, hagree job.key rfl]

theorem fst_remember_congr {job : Job} (file : FileOutline) (hagree : cache.AgreesOn job.path other) :
    (session.remember cache job file).1 = (session.remember other job file).1 := by
  rw [remember, remember]
  split
  · rw [Cache.fst_keep, Cache.fst_keep, hagree job.key rfl]
  · rfl

theorem agreesOn_remember {path : String} {job : Job} (file : FileOutline) (hpath : job.path ≠ path) :
    (session.remember cache job file).2.AgreesOn path cache := by
  rw [remember]
  split
  · exact Cache.agreesOn_keep cache file hpath
  · exact fun _ _ => rfl

/-- The outcome to which a scan comes from a stage if no other scan takes a step any more. -/
def conclude (session : Session) (cache : Cache) (source : Source) : Stage → Except Fault FileOutline
  | .called => (session.scan cache source).1
  | .prepared job =>
    match session.kept? cache job with
    | some file => .ok file
    | none =>
      match session.perform job with
      | .error fault => .error fault
      | .ok file => .ok (session.remember cache job file).1
  | .missed job =>
    match session.perform job with
    | .error fault => .error fault
    | .ok file => .ok (session.remember cache job file).1
  | .performed job file => .ok (session.remember cache job file).1
  | .finished outcome => outcome

theorem scan_of_prepare {job : Job} (hjob : session.prepare source = .ok job) :
    (session.scan cache source).1 = session.conclude cache source (.prepared job) := by
  rw [scan, hjob, conclude]
  dsimp only
  cases session.kept? cache job with
  | some file => rfl
  | none =>
    dsimp only
    cases session.perform job <;> rfl

/-- A step of its own does not change where a scan comes to. -/
theorem conclude_next :
    session.conclude (session.next cache source stage).2 source (session.next cache source stage).1 =
      session.conclude cache source stage := by
  cases stage with
  | called =>
    rw [next]
    cases hjob : session.prepare source with
    | error fault => rw [conclude, conclude, scan, hjob]
    | ok job => exact (scan_of_prepare hjob).symm
  | prepared job =>
    rw [next]
    cases hkept : session.kept? cache job <;> simp [conclude, hkept]
  | missed job =>
    rw [next]
    cases hperform : session.perform job <;> simp [conclude, hperform]
  | performed job file => rfl
  | finished outcome => rfl

/-- Results for other paths do not change where a scan comes to. -/
theorem conclude_congr (hconcerns : stage.Concerns source) (hagree : cache.AgreesOn source.path other) :
    session.conclude cache source stage = session.conclude other source stage := by
  have hprepared : ∀ job : Job, job.path = source.path →
      session.conclude cache source (.prepared job) = session.conclude other source (.prepared job) := by
    intro job hpath
    rw [← hpath] at hagree
    simp only [conclude, kept?_congr hagree, fst_remember_congr _ hagree]
  cases stage with
  | called =>
    rw [conclude, conclude]
    cases hjob : session.prepare source with
    | error fault => rw [scan, scan, hjob]
    | ok job => rw [scan_of_prepare hjob, scan_of_prepare hjob, hprepared job (path_of_prepare hjob)]
  | prepared job => exact hprepared job hconcerns
  | missed job =>
    rw [← show job.path = source.path from hconcerns] at hagree
    simp only [conclude, fst_remember_congr _ hagree]
  | performed job file =>
    rw [← show job.path = source.path from hconcerns] at hagree
    simp only [conclude, fst_remember_congr _ hagree]
  | finished outcome => rfl

theorem concerns_next (hconcerns : stage.Concerns source) :
    (session.next cache source stage).1.Concerns source := by
  cases stage with
  | called =>
    rw [next]
    cases hjob : session.prepare source with
    | error fault => exact trivial
    | ok job => exact path_of_prepare hjob
  | prepared job =>
    rw [next]
    cases session.kept? cache job with
    | some file => exact trivial
    | none => exact hconcerns
  | missed job =>
    rw [next]
    cases session.perform job with
    | error fault => exact trivial
    | ok file => exact hconcerns
  | performed job file => exact trivial
  | finished outcome => exact trivial

/-- The one step that touches the kept results is the last one of a scan that was performed. -/
theorem snd_next_cases (session : Session) (cache : Cache) (source : Source) (stage : Stage) :
    (session.next cache source stage).2 = cache ∨ ∃ job file, stage = .performed job file ∧
      (session.next cache source stage).2 = (session.remember cache job file).2 := by
  cases stage with
  | called => rw [next]; cases session.prepare source <;> exact .inl rfl
  | prepared job => rw [next]; cases session.kept? cache job <;> exact .inl rfl
  | missed job => rw [next]; cases session.perform job <;> exact .inl rfl
  | performed job file => exact .inr ⟨job, file, rfl, rfl⟩
  | finished outcome => exact .inl rfl

/-- A step touches the results of its own file only. -/
theorem agreesOn_next (cache : Cache) {path : String} (hconcerns : stage.Concerns source) (hpath : source.path ≠ path) :
    (session.next cache source stage).2.AgreesOn path cache := by
  obtain hcache | ⟨job, file, rfl, hcache⟩ := session.snd_next_cases cache source stage
  · rw [hcache]
    exact fun _ _ => rfl
  · rw [hcache]
    refine agreesOn_remember file ?_
    rw [show job.path = source.path from hconcerns]
    exact hpath

end Frame

section Batches

variable {sources : List Source} {workers : Nat} {site after : Site}

/-- Every scan of the site comes to the outcome that it would have alone. -/
structure Undisturbed (session : Session) (cache : Cache) (sources : List Source) (site : Site) : Prop where
  sources_eq : site.calls.map Call.source = sources
  concerns : ∀ call ∈ site.calls, call.stage.Concerns call.source
  conclude_eq : ∀ call ∈ site.calls,
    session.conclude site.cache call.source call.stage = (session.scan cache call.source).1

theorem undisturbed_waiting (session : Session) (cache : Cache) (sources : List Source) :
    session.Undisturbed cache sources (.waiting cache sources) where
  sources_eq := by
    rw [Site.waiting, List.map_map]
    exact List.map_id sources
  concerns := by
    intro call hmem
    obtain ⟨source, _, rfl⟩ := List.mem_map.1 hmem
    exact trivial
  conclude_eq := by
    intro call hmem
    obtain ⟨source, _, rfl⟩ := List.mem_map.1 hmem
    rfl

/-- A step of a worker leaves every scan undisturbed: its own goes on, and the others have other paths. -/
theorem Undisturbed.works (hdistinct : (sources.map Source.path).Nodup) (h : session.Undisturbed cache sources site)
    (hworks : session.Works workers site after) : session.Undisturbed cache sources after := by
  obtain ⟨position, call, hcall, -, rfl⟩ := hworks.exists_step
  have hmem := List.mem_of_getElem? hcall
  obtain ⟨hlt, -⟩ := List.getElem?_eq_some_iff.1 hcall
  have hpaths : (site.calls.map fun call => call.source.path).Nodup := by
    rw [← h.sources_eq, List.map_map] at hdistinct
    exact hdistinct
  -- a call of the new site is the one that moved, or it stands elsewhere and has another path
  have hcases : ∀ moved ∈ site.calls.set position ⟨call.source, (session.next site.cache call.source call.stage).1⟩,
      moved = ⟨call.source, (session.next site.cache call.source call.stage).1⟩ ∨
        moved ∈ site.calls ∧ call.source.path ≠ moved.source.path := by
    intro moved hmoved
    obtain ⟨place, hplace⟩ := List.mem_iff_getElem?.1 hmoved
    rw [List.getElem?_set] at hplace
    split at hplace
    · exact .inl (Option.some.inj hplace).symm
    · next hother =>
      refine .inr ⟨List.mem_of_getElem? hplace, fun hsame => hother ?_⟩
      refine (List.getElem?_inj (by simpa using hlt) hpaths).1 ?_
      simp [List.getElem?_map, hcall, hplace, hsame]
  constructor
  · have hsource : (site.calls.map Call.source)[position]? = some call.source := by
      rw [List.getElem?_map, hcall, Option.map_some]
    obtain ⟨hin, hsource⟩ := List.getElem?_eq_some_iff.1 hsource
    rw [← h.sources_eq, List.map_set, ← hsource, List.set_getElem_self]
  · intro moved hmoved
    obtain rfl | ⟨hold, _⟩ := hcases moved hmoved
    · exact concerns_next (h.concerns call hmem)
    · exact h.concerns moved hold
  · intro moved hmoved
    obtain rfl | ⟨hold, hpath⟩ := hcases moved hmoved
    · exact conclude_next.trans (h.conclude_eq call hmem)
    · have hagree := session.agreesOn_next site.cache (h.concerns call hmem) hpath
      rw [conclude_congr (h.concerns moved hold) hagree]
      exact h.conclude_eq moved hold

theorem Finishes.undisturbed (hdistinct : (sources.map Source.path).Nodup)
    (h : session.Finishes workers cache sources site) : session.Undisturbed cache sources site := by
  obtain ⟨hreached, -⟩ := h
  induction hreached with
  | refl => exact undisturbed_waiting session cache sources
  | tail _ hworks ih => exact ih.works hdistinct hworks

/-- When the workers are done, every file has the outcome that it has alone. -/
theorem Finishes.outcomes_eq (hworkers : 0 < workers) (hdistinct : (sources.map Source.path).Nodup)
    (h : session.Finishes workers cache sources site) :
    site.outcomes = sources.map fun source => (session.scan cache source).1 := by
  have hundisturbed := h.undisturbed hdistinct
  rw [← hundisturbed.sources_eq, List.map_map, Site.outcomes, List.filterMap_eq_map_iff_forall_eq_some]
  intro call hmem
  obtain ⟨outcome, hstage⟩ := Stage.stepsLeft_eq_zero_iff.1 (stepsLeft_eq_zero_of_idle hworkers h.idle call hmem)
  have houtcome := hundisturbed.conclude_eq call hmem
  rw [hstage, conclude] at houtcome
  rw [Call.outcome?, hstage, houtcome]
  rfl

end Batches

section Paths

variable {job : Job} {fault : Fault}

theorem path?_of_prepare (hfault : session.prepare source = .error fault) : fault.path? = some source.path := by
  rw [prepare] at hfault
  split at hfault
  · cases hfault
    rfl
  · dsimp only at hfault
    split at hfault
    · cases hfault
    · split at hfault
      · next language =>
        cases hfault
        rw [Registry.languageOf] at language
        split at language
        · cases language
        · cases language
          rw [String.ofList_toList]
          rfl
      · cases hfault

theorem path?_of_perform (hfault : session.perform job = .error fault) : fault.path? = some job.path := by
  rw [perform] at hfault
  split at hfault
  · cases hfault
    rfl
  · split at hfault
    · cases hfault
      rfl
    · cases hfault

theorem snd_next_of_not_cache (hcache : session.config.cache = false) :
    (session.next cache source stage).2 = cache := by
  obtain hnext | ⟨job, file, rfl, hnext⟩ := session.snd_next_cases cache source stage
  · exact hnext
  · rw [hnext, remember, hcache]
    rfl

theorem cache_run_of_not_cache (hcache : session.config.cache = false) (events : List Event) :
    (session.run events).cache = .empty := by
  have hfold : ∀ site : Site, (events.foldl session.advance site).cache = site.cache := by
    induction events with
    | nil => exact fun _ => rfl
    | cons event events ih =>
      intro site
      rw [List.foldl_cons, ih]
      cases event with
      | call source => rfl
      | step position =>
        cases hcall : site.calls[position]? with
        | none => rw [advance_step_none hcall]
        | some call => rw [advance_step_some hcall, snd_next_of_not_cache hcache]
  exact hfold _

/-- Whatever a session has done, it keeps outlines under their own paths. -/
theorem labelled_run (session : Session) (events : List Event) : (session.run events).cache.Labelled := by
  intro key file hkept
  cases hcache : session.config.cache with
  | false =>
    rw [cache_run_of_not_cache hcache, Cache.find?_empty] at hkept
    cases hkept
  | true =>
    obtain ⟨_, _, ⟨job, _, rfl, hperform⟩, _⟩ := (consistent_run hcache events).made key file hkept
    exact path_of_perform hperform

theorem path_of_kept? {file : FileOutline} (hlabelled : cache.Labelled) (hkept : session.kept? cache job = some file) :
    file.path = job.path := by
  rw [kept?] at hkept
  split at hkept
  · exact hlabelled job.key file hkept
  · cases hkept

theorem path_remember {file : FileOutline} (hlabelled : cache.Labelled) (hpath : file.path = job.path) :
    (session.remember cache job file).1.path = job.path := by
  rw [remember]
  split
  · rw [Cache.fst_keep]
    cases hfound : cache.find? job.key with
    | none => exact hpath
    | some earlier => exact hlabelled job.key earlier hfound
  · exact hpath

/-- An outcome, good or bad, bears the path of its file. -/
theorem outcomePath?_scan (hlabelled : cache.Labelled) (source : Source) :
    outcomePath? (session.scan cache source).1 = some source.path := by
  cases hjob : session.prepare source with
  | error fault =>
    rw [scan, hjob]
    exact path?_of_prepare hjob
  | ok job =>
    rw [scan_of_prepare hjob, conclude, ← path_of_prepare hjob]
    cases hkept : session.kept? cache job with
    | some file => exact congrArg some (path_of_kept? hlabelled hkept)
    | none =>
      cases hperform : session.perform job with
      | error fault => exact path?_of_perform hperform
      | ok file => exact congrArg some (path_remember hlabelled (path_of_perform hperform))

end Paths

/-- What holds of workers that share files, from given kept results on. -/
structure Isolation (session : Session) (cache : Cache) (sources : List Source) (workers : Nat) : Prop where
  /-- However the workers proceed, they come to an end. -/
  ends : WellFounded fun after site => session.Works workers site after
  /-- One way to proceed is to scan one file after the other. -/
  oneByOne : ∃ site, session.Finishes workers cache sources site ∧
    site.outcomes = (session.scanAll cache sources).1 ∧ site.cache = (session.scanAll cache sources).2
  /-- In the end each file has one outcome, which is that of scanning it alone. -/
  outcomes_eq : ∀ site, session.Finishes workers cache sources site →
    site.outcomes = sources.map fun source => (session.scan cache source).1
  /-- There are as many outlines and faults as files. -/
  total_eq : ∀ site, session.Finishes workers cache sources site → site.batch.total = sources.length
  /-- The outlines and faults bear the paths of the files. -/
  paths_perm : ∀ site, session.Finishes workers cache sources site →
    (site.batch.files.map (fun file => some file.path) ++ site.batch.faults.map Fault.path?).Perm
      (sources.map fun source => some source.path)
  /-- The sorted batch is the batch in the order of the paths. -/
  sortedFrom : ∀ site, session.Finishes workers cache sources site → site.batch.sortByPath.SortedFrom site.batch
  /-- The sorted batch is the same for other orders of the files, other numbers of workers and other ways to
  proceed. -/
  sortByPath_eq : ∀ site, session.Finishes workers cache sources site →
    ∀ others : List Source, others.Perm sources → ∀ workers', 0 < workers' →
      ∀ site', session.Finishes workers' cache others site' → site'.batch.sortByPath = site.batch.sortByPath

/-- Files with different paths are scanned in isolation, whatever the session has done before and however the workers
share the files. Nothing is assumed of the scanners: a file whose scanner breaks down has a fault of its own, and the
others do not notice. -/
theorem batch_isolation (session : Session) (history : List Event) (sources : List Source)
    (hdistinct : (sources.map Source.path).Nodup) (workers : Nat) (hworkers : 0 < workers) :
    session.Isolation (session.run history).cache sources workers := by
  have hpaths : ∀ files : List Source,
      (files.map fun source => (session.scan (session.run history).cache source).1).map outcomePath? =
        (files.map Source.path).map some := by
    intro files
    rw [List.map_map, List.map_map]
    exact List.map_congr_left fun source _ => outcomePath?_scan (session.labelled_run history) source
  constructor
  case ends => exact session.wellFounded_works workers
  case oneByOne => exact session.exists_finishes_scanAll hworkers _ sources
  case outcomes_eq => exact fun site hsite => hsite.outcomes_eq hworkers hdistinct
  case total_eq =>
    intro site hsite
    rw [Site.batch, Batch.total_ofOutcomes, hsite.outcomes_eq hworkers hdistinct, List.length_map]
  case paths_perm =>
    intro site hsite
    have hbatch := Batch.paths_ofOutcomes_perm site.outcomes
    rw [hsite.outcomes_eq hworkers hdistinct, hpaths, List.map_map] at hbatch
    rw [Site.batch, hsite.outcomes_eq hworkers hdistinct]
    exact hbatch
  case sortedFrom => exact fun site _ => site.batch.sortedFrom_sortByPath
  case sortByPath_eq =>
    intro site hsite others hperm workers' hworkers' site' hsite'
    have hdistinct' : (others.map Source.path).Nodup := (hperm.map _).nodup_iff.2 hdistinct
    rw [Site.batch, Site.batch, hsite.outcomes_eq hworkers hdistinct, hsite'.outcomes_eq hworkers' hdistinct']
    exact Batch.sortByPath_ofOutcomes_eq (hpaths others) hdistinct' (hperm.map _)

/-- A session that keeps results, with a scanner for one language that breaks down on every text. -/
def brittle : Session :=
  ⟨{ cache := true }, (Registry.full { cache := true }).register .go ⟨.go, fun _ => .error "boom", fun _ => .ok []⟩⟩

/-- A file with a kept result, one on which the scanner breaks down, one without a language, one that is no text. -/
def mixed : List Source :=
  [⟨"d.py", [120, 61, 49], none⟩, ⟨"c.go", [120], none⟩, ⟨"b.txt", [], none⟩, ⟨"a.py", [255], none⟩]

/-- The file was scanned before with another text. -/
def oneScan : List Event :=
  .call ⟨"d.py", [121, 61, 50], none⟩ :: List.replicate 4 (.step 0)

theorem batch_isolation_mixed :
    (mixed.map Source.path).Nodup ∧ 0 < 2 ∧
      (Batch.ofOutcomes (brittle.scanAll (brittle.run oneScan).cache mixed).1).files.map FileOutline.content =
        [['y', '=', '2']] ∧
      (Batch.ofOutcomes (brittle.scanAll (brittle.run oneScan).cache mixed).1).faults =
        [.brokenScanner "c.go" "boom", .unsupported "b.txt" "txt", .undecodable "a.py" 0] ∧
      brittle.Isolation (brittle.run oneScan).cache mixed 2 :=
  ⟨by decide, by decide, by decide +kernel, by decide +kernel,
    batch_isolation brittle oneScan mixed (by decide) 2 (by decide)⟩

end Session

end Outline
