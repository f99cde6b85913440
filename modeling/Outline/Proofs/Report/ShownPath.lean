import Outline.CommandLine.Run
import Outline.Proofs.FileTree.Collection
import Outline.Proofs.Path.Relative
import Outline.Proofs.Session.Isolation

namespace Outline

namespace Text

theorem map_join (f : Char → Char) (separator : Text) (parts : List Text) :
    (join separator parts).map f = join (separator.map f) (parts.map (List.map f)) := by
  induction parts with
  | nil => rfl
  | cons t rest ih =>
    cases rest with
    | nil => rfl
    | cons next rest =>
      rw [join_cons_cons, List.map_append, List.map_append, ih, List.map_cons, List.map_cons, List.map_cons,
        join_cons_cons]

/-- Pieces with the character between them that the text was split at make up the text. -/
theorem join_splitWhere (c : Char) (t : Text) : join [c] (t.splitWhere (· == c)) = t := by
  induction t with
  | nil => rfl
  | cons d t ih =>
    obtain ⟨piece, pieces, hpieces⟩ := List.exists_cons_of_ne_nil (splitWhere_ne_nil (· == c) t)
    rw [hpieces] at ih
    by_cases hd : d = c
    · rw [splitWhere_cons_of_pos (by simpa using hd), hpieces, join_cons_cons, ih, hd]
      rfl
    · rw [splitWhere_cons_of_neg (by simpa using hd), hpieces, List.modifyHead_cons, ← ih]
      cases pieces <;> rfl

/-- Texts joined by a character split into the pieces of all of them. -/
theorem splitWhere_join_flatMap (c : Char) {parts : List Text} (hparts : parts ≠ []) :
    (join [c] parts).splitWhere (· == c) = parts.flatMap (splitWhere (· == c)) := by
  induction parts with
  | nil => exact absurd rfl hparts
  | cons t rest ih =>
    cases rest with
    | nil => rw [List.flatMap_singleton]; rfl
    | cons next rest =>
      rw [join_cons_cons, List.append_assoc, List.singleton_append, splitWhere_append_cons (by simp),
        ih (List.cons_ne_nil _ _), ← List.flatMap_cons]

end Text

namespace Path

/-- A backslash as the slash that it is shown as. -/
def slashed (c : Char) : Char :=
  if c = '\\' then '/' else c

/-- Names with every backslash as the end of a name. -/
def atBackslashes (way : List Text) : List Text :=
  way.flatMap (Text.splitWhere (· == '\\'))

variable {way way' : List Text}

/-- A name without slashes splits at slashes where its backslashes were. -/
theorem splitWhere_map_slashed {name : Text} (hslash : '/' ∉ name) :
    Text.splitWhere (· == '/') (name.map slashed) = name.splitWhere (· == '\\') := by
  induction name with
  | nil => rfl
  | cons c name ih =>
    obtain ⟨hc, hslash⟩ := not_or.1 fun hmem => hslash (List.mem_cons.2 hmem)
    rw [List.map_cons]
    by_cases hback : c = '\\'
    · rw [slashed, if_pos hback, Text.splitWhere_cons_of_pos (by rfl), ih hslash,
        Text.splitWhere_cons_of_pos (by simpa using hback)]
    · rw [slashed, if_neg hback, Text.splitWhere_cons_of_neg (by simpa using Ne.symm hc), ih hslash,
        Text.splitWhere_cons_of_neg (by simpa using hback)]

/-- Names with slashes between them and every backslash as a slash are their pieces at backslashes. -/
theorem map_slashed_join (hway : ∀ name ∈ way, '/' ∉ name) :
    (Text.join ['/'] way).map slashed = Text.join ['/'] (atBackslashes way) := by
  by_cases hne : way = []
  · subst hne
    rfl
  have hpieces : Text.splitWhere (· == '/') ((Text.join ['/'] way).map slashed) = atBackslashes way := by
    rw [Text.map_join, List.map_singleton, show slashed '/' = '/' from rfl,
      Text.splitWhere_join_flatMap _ (List.map_eq_nil_iff.not.2 hne), List.flatMap_map, atBackslashes]
    exact List.flatMap_congr fun name hmem => splitWhere_map_slashed (hway name hmem)
  rw [← hpieces, Text.join_splitWhere]

theorem atBackslashes_of_not_mem (hway : ∀ name ∈ way, '\\' ∉ name) : atBackslashes way = way := by
  have hsplit : way.flatMap (Text.splitWhere (· == '\\')) = way.flatMap fun name => [name] := by
    refine List.flatMap_congr fun name hmem => Text.splitWhere_of_forall fun c hc => ?_
    rw [beq_eq_false_iff_ne]
    rintro rfl
    exact hway name hmem hc
  rw [atBackslashes, hsplit, List.flatMap_singleton']

theorem not_slash_mem_atBackslashes (hway : ∀ name ∈ way, '/' ∉ name) : ∀ piece ∈ atBackslashes way, '/' ∉ piece := by
  intro piece hmem hslash
  obtain ⟨name, hname, hpiece⟩ := List.mem_flatMap.1 hmem
  exact hway name hname ((Text.mem_iff_of_splitWhere (by rfl)).2 ⟨piece, hpiece, hslash⟩)

/-- Ways with the same text are the same up to backslashes. -/
theorem join_atBackslashes_inj (hway : ∀ name ∈ way, '/' ∉ name) (hway' : ∀ name ∈ way', '/' ∉ name) (hne : way ≠ [])
    (hne' : way' ≠ []) :
    Text.join ['/'] (atBackslashes way) = Text.join ['/'] (atBackslashes way') ↔
      atBackslashes way = atBackslashes way' := by
  have hpieces : ∀ names : List Text, (∀ name ∈ names, '/' ∉ name) → names ≠ [] →
      Text.splitWhere (· == '/') (Text.join ['/'] (atBackslashes names)) = atBackslashes names := by
    intro names hnames hsome
    obtain ⟨name, rest, rfl⟩ := List.exists_cons_of_ne_nil hsome
    obtain ⟨piece, pieces, hsplit⟩ := List.exists_cons_of_ne_nil (Text.splitWhere_ne_nil (· == '\\') name)
    have hcons : atBackslashes (name :: rest) = piece :: (pieces ++ atBackslashes rest) := by
      rw [atBackslashes, List.flatMap_cons, hsplit, List.cons_append, atBackslashes]
    have hslash := not_slash_mem_atBackslashes hnames
    rw [hcons] at hslash ⊢
    exact splitWhere_join hslash
  constructor
  · intro heq
    rw [← hpieces way hway hne, heq, hpieces way' hway' hne']
  · exact congrArg _

end Path

namespace Report

variable {base path : Text}

/-- Of a path below the base what leads there is shown, with slashes for backslashes. -/
theorem shownPath_of_below (hbelow : Path.components base <+: Path.components path)
    (hne : Path.components base ≠ Path.components path) :
    shownPath base path = (Path.dropComponents (Path.components base).length path).map Path.slashed := by
  have hrelative : Path.relative? base path = some (Path.dropComponents (Path.components base).length path) := by
    rw [Path.relative?]
    exact if_pos (List.isPrefixOf_iff_prefix.2 hbelow)
  rw [shownPath, if_neg (Ne.symm hne), hrelative]
  cases hdropped : Path.dropComponents (Path.components base).length path with
  | nil =>
    -- nothing would be left of the path only if it had the components of the base
    have hnone := Path.components_dropComponents (Path.components base).length path
    rw [hdropped, Path.components_eq_nil_iff.2 rfl] at hnone
    have hsplit := List.prefix_iff_eq_append.1 hbelow
    rw [← hnone, List.append_nil] at hsplit
    exact absurd hsplit hne
  | cons c t => rfl

/-- A path below a base leads back to its file exactly if no name on the way there holds a backslash. -/
theorem components_rejoin_shownPath_iff (hbelow : Path.components base <+: Path.components path)
    (hne : Path.components base ≠ Path.components path) :
    Path.components (Path.rejoin base (shownPath base path)) = Path.components path ↔
      ∀ component ∈ (Path.components path).drop (Path.components base).length, '\\' ∉ component.text := by
  have hrejoin := Path.components_rejoin_dropComponents hbelow
  have hdropped := Path.components_dropComponents (Path.components base).length path
  rw [shownPath_of_below hbelow hne]
  constructor
  · intro hsame component hmem hback
    rw [← hsame] at hmem
    have hslashed := Path.mem_of_mem_drop_components_rejoin (by decide) (by decide) ⟨component, hmem, hback⟩
    obtain ⟨c, -, hc⟩ := List.mem_map.1 hslashed
    rw [Path.slashed] at hc
    split at hc
    · exact absurd hc (by decide)
    · next hother => exact hother hc
  · intro hclean
    have hback : '\\' ∉ Path.dropComponents (Path.components base).length path := by
      intro hmem
      obtain ⟨component, hcomponent, hback⟩ := (Path.mem_components_text_iff (by decide) (by decide)).2 hmem
      exact hclean component (hdropped ▸ hcomponent) hback
    rw [List.map_congr_left (g := id), List.map_id, hrejoin]
    intro c hc
    rw [Path.slashed, if_neg (ne_of_mem_of_not_mem hc hback), id]

end Report

namespace Session

variable {session : Session} {cache : Cache}

theorem labelled_empty : Cache.empty.Labelled := by
  intro key file hkept
  cases hkept

/-- A scan keeps outlines under their own paths. -/
theorem labelled_scan (hlabelled : cache.Labelled) (source : Source) : (session.scan cache source).2.Labelled := by
  rw [scan]
  cases session.prepare source with
  | error fault => exact hlabelled
  | ok job =>
    dsimp only
    cases hkept : session.kept? cache job with
    | some file => exact hlabelled
    | none =>
      dsimp only
      cases hperform : session.perform job with
      | error fault => exact hlabelled
      | ok file =>
        dsimp only [remember]
        split
        · cases hfound : cache.find? job.key with
          | some earlier => rw [Cache.keep_of_find?_eq_some hfound]; exact hlabelled
          | none =>
            intro key found hfind
            rw [Cache.keep_of_find?_eq_none hfound, Cache.find?_add] at hfind
            split at hfind
            · next hkey =>
              rw [← hkey, ← Option.some.inj hfind]
              exact path_of_perform hperform
            · exact hlabelled key found hfind
        · exact hlabelled

/-- The outcomes of files bear their paths in their order, also those of files that cannot be read. -/
theorem outcomePath?_scanPaths (disk : Disk) (hlabelled : cache.Labelled) (paths : List Text) :
    (session.scanPaths disk cache paths).1.map outcomePath? = paths.map fun path => some (String.ofList path) := by
  induction paths generalizing cache with
  | nil => rfl
  | cons path paths ih =>
    rw [scanPaths, List.map_cons, List.map_cons]
    cases hread : Source.read disk path with
    | error fault =>
      have hfault : fault.path? = some (String.ofList path) := by
        rw [Source.read] at hread
        split at hread <;> cases hread
        rfl
      have hscan : session.scanPath disk cache path = (.error fault, cache) := by rw [scanPath, hread]
      rw [hscan, ih hlabelled, outcomePath?, hfault]
    | ok source =>
      have hpath : source.path = String.ofList path := by
        rw [Source.read] at hread
        split at hread <;> cases hread
        rfl
      have hscan : session.scanPath disk cache path = session.scan cache source := by rw [scanPath, hread]
      rw [hscan, ih (labelled_scan hlabelled source), outcomePath?_scan hlabelled, hpath]

end Session

namespace Report

/-- The paths that a report shows. -/
def shownPaths (report : Report) : List String :=
  report.files.map FileOutline.path ++ report.faults.map ReportedFault.file

/-- A batch is reported with the shown path of each of its files. -/
theorem shownPaths_ofBatch_perm {outcomes : List (Except Fault FileOutline)} {paths : List String}
    (hpaths : outcomes.map outcomePath? = paths.map some) (base : String) :
    (ofBatch base (Batch.ofOutcomes outcomes).sortByPath).shownPaths.Perm (paths.map (shown base)) := by
  have hbatch := Batch.paths_ofOutcomes_perm outcomes
  rw [hpaths] at hbatch
  have hshown := hbatch.map fun path? => (path?.map (shown base)).getD ""
  rw [List.map_append, List.map_map, List.map_map, List.map_map] at hshown
  refine List.Perm.trans ?_ hshown
  rw [shownPaths, ofBatch, List.map_map, List.map_map]
  exact ((List.mergeSort_perm _ _).map _).append ((List.mergeSort_perm _ _).map _)

/-- The report of a session that scanned files below the directory that was asked for. -/
def ofScan (disk : Disk) (session : Session) (root : Text) (files : List Text) : Report :=
  ofBatch (String.ofList (CommandLine.baseOf disk [root]))
    (Batch.ofOutcomes (session.scanPaths disk .empty files).1).sortByPath

/-- The report of a scanned directory shows a path of each of its files. -/
theorem shownPaths_ofScan_perm {disk : Disk} {root : Text} {entries : List (Text × FileTree)}
    (hroot : disk root = .ok (.directory entries)) (session : Session) (files : List Text) :
    (ofScan disk session root files).shownPaths.Perm (files.map fun path => String.ofList (shownPath root path)) := by
  have hpaths : (session.scanPaths disk .empty files).1.map outcomePath? = (files.map String.ofList).map some := by
    rw [Session.outcomePath?_scanPaths disk Session.labelled_empty, List.map_map]
    rfl
  have hbase : CommandLine.baseOf disk [root] = root := by
    simp only [CommandLine.baseOf, hroot]
  have hperm := shownPaths_ofBatch_perm hpaths (String.ofList root)
  rw [List.map_map] at hperm
  rw [ofScan, hbase]
  refine hperm.trans (.of_eq (List.map_congr_left fun path _ => ?_))
  rw [Function.comp_apply, shown, String.toList_ofList, String.toList_ofList]

/-- The document that a scan of one directory prints. -/
theorem out_reportOn (disk : Disk) (palette : Palette) {request : CommandLine.ScanRequest} {root : Text}
    (hpaths : request.paths = [root]) (hformat : request.format = "json".toList) (session : Session)
    (files : List Text) :
    (CommandLine.reportOn disk palette request session files).out = (ofScan disk session root files).text := by
  rw [CommandLine.reportOn, hpaths, hformat]
  rfl

/-- What the report of a scanned directory shows of the ways to its files. -/
structure TellsApart (disk : Disk) (session : Session) (root : Text) (ways : List (List Text)) : Prop where
  /-- No file is scanned twice. -/
  nodup_ways : ways.Nodup
  /-- The report is what the command prints. -/
  out_eq : ∀ palette request, request.paths = [root] → request.format = "json".toList →
    (CommandLine.reportOn disk palette request session (ways.map (Path.joinAll root))).out =
      (ofScan disk session root (ways.map (Path.joinAll root))).text
  /-- Each file is shown by the names that lead to it, with slashes between them and for their backslashes. -/
  shown_perm : (ofScan disk session root (ways.map (Path.joinAll root))).shownPaths.Perm
    (ways.map fun way => String.ofList (Text.join ['/'] (Path.atBackslashes way)))
  /-- No path is shown of two files exactly if backslashes are not all that tells two files apart. -/
  nodup_iff : (ofScan disk session root (ways.map (Path.joinAll root))).shownPaths.Nodup ↔
    ∀ way ∈ ways, ∀ way' ∈ ways, Path.atBackslashes way = Path.atBackslashes way' → way = way'
  /-- In particular, no path is shown of two files if no name holds a backslash. -/
  nodup_of_not_mem : (∀ way ∈ ways, ∀ name ∈ way, '\\' ∉ name) →
    (ofScan disk session root (ways.map (Path.joinAll root))).shownPaths.Nodup

/-- Of a file below a directory the names that lead there are shown. -/
theorem shownPath_joinAll {root : Text} {way : List Text} (hroot : root ≠ [])
    (hway : ∀ name ∈ way, FileTree.IsEntryName name) (hne : way ≠ []) :
    shownPath root (Path.joinAll root way) = Text.join ['/'] (Path.atBackslashes way) := by
  have hnames : ∀ name ∈ way, Path.isIdle name = false ∧ '/' ∉ name := by
    intro name hmem
    have hentry := hway name hmem
    exact ⟨Bool.eq_false_iff.2 (Path.isIdle_iff.not.2 (not_or.2 ⟨hentry.ne_nil, hentry.ne_current⟩)),
      hentry.not_slash_mem⟩
  obtain ⟨hcomponents, hdropped⟩ := Path.components_joinAll hroot hnames hne
  have hbelow : Path.components root <+: Path.components (Path.joinAll root way) :=
    hcomponents ▸ List.prefix_append _ _
  have hstrict : Path.components root ≠ Path.components (Path.joinAll root way) := by
    rw [hcomponents]
    simpa using hne
  rw [shownPath_of_below hbelow hstrict, hdropped]
  exact Path.map_slashed_join fun name hmem => (hway name hmem).not_slash_mem

/-- The report of a scanned directory tells its files apart as far as backslashes allow. -/
theorem exists_tellsApart {tree : FileTree} (htree : tree.WellFormed) {root : Text} {entries : List (Text × FileTree)}
    (hroot : tree.disk root = .ok (.directory entries)) (config : Config) (session : Session) :
    ∃ ways : List (List Text), CommandLine.filesAt tree.disk config root = .ok (ways.map (Path.joinAll root)) ∧
      TellsApart tree.disk session root ways := by
  obtain ⟨hpath, hnode⟩ := htree.of_disk hroot
  obtain ⟨ways, hcollect, hordered, -, hmem, -⟩ := collect_exact htree config hroot
  have hnames : ∀ way ∈ ways, ∀ name ∈ way, FileTree.IsEntryName name := by
    intro way hway
    obtain ⟨bytes, hfile⟩ := ((hmem way).1 hway).1
    exact hnode.isEntryName_of_descend? hfile
  have hne : ∀ way ∈ ways, way ≠ [] := by
    rintro way hway rfl
    obtain ⟨bytes, hfile⟩ := ((hmem _).1 hway).1
    cases hfile
  have hslash : ∀ way ∈ ways, ∀ name ∈ way, '/' ∉ name := fun way hway name hname =>
    (hnames way hway name hname).not_slash_mem
  have hways : ways.Nodup := hordered.imp FileTree.Before.ne
  have hshown : (ofScan tree.disk session root (ways.map (Path.joinAll root))).shownPaths.Perm
      (ways.map fun way => String.ofList (Text.join ['/'] (Path.atBackslashes way))) := by
    have hperm := shownPaths_ofScan_perm hroot session (ways.map (Path.joinAll root))
    rw [List.map_map] at hperm
    refine hperm.trans (.of_eq (List.map_congr_left fun way hway => ?_))
    rw [Function.comp_apply, shownPath_joinAll hpath (hnames way hway) (hne way hway)]
  have hnodup : (ofScan tree.disk session root (ways.map (Path.joinAll root))).shownPaths.Nodup ↔
      ∀ way ∈ ways, ∀ way' ∈ ways, Path.atBackslashes way = Path.atBackslashes way' → way = way' := by
    rw [hshown.nodup_iff, List.nodup_map_iff_inj_on hways]
    refine forall₂_congr fun way hway => forall₂_congr fun way' hway' => ?_
    rw [String.ofList_inj, Path.join_atBackslashes_inj (hslash way hway) (hslash way' hway') (hne way hway)
      (hne way' hway')]
  refine ⟨ways, ?_, hways, ?_, hshown, hnodup, ?_⟩
  · simp only [CommandLine.filesAt, hroot, hcollect]
  · intro palette request hpaths hformat
    exact out_reportOn _ palette hpaths hformat session _
  · intro hclean
    refine hnodup.2 fun way hway way' hway' heq => ?_
    rwa [Path.atBackslashes_of_not_mem (hclean way hway), Path.atBackslashes_of_not_mem (hclean way' hway')] at heq

/-- A path that is shown relative to a base leads back to its file exactly if no name on the way from the base holds
a backslash. If the base is a directory, the report of its scan shows no path of two files exactly if backslashes for
slashes are not all that tells two of its files apart. -/
theorem shownPaths_identify (base : Text) :
    (∀ path : Text, Path.components base <+: Path.components path → Path.components base ≠ Path.components path →
      (Path.components (Path.rejoin base (shownPath base path)) = Path.components path ↔
        ∀ component ∈ (Path.components path).drop (Path.components base).length, '\\' ∉ component.text)) ∧
    ∀ (tree : FileTree) (entries : List (Text × FileTree)), tree.WellFormed →
      tree.disk base = .ok (.directory entries) → ∀ (config : Config) (session : Session),
        ∃ ways : List (List Text), CommandLine.filesAt tree.disk config base = .ok (ways.map (Path.joinAll base)) ∧
          TellsApart tree.disk session base ways :=
  ⟨fun _ hbelow hne => components_rejoin_shownPath_iff hbelow hne,
    fun _ _ htree hbase config session => exists_tellsApart htree hbase config session⟩

/-- Two spellings of one directory and of a file in it, and a scan from inside a directory. -/
theorem shownPaths_identify_sampleProject :
    Path.components (Path.rejoin "./src//".toList (shownPath "./src//".toList "./src/./a/b.rs".toList)) =
      Path.components "./src/./a/b.rs".toList ∧
    ∃ ways : List (List Text),
      CommandLine.filesAt sampleProject.disk {} ['.'] = .ok (ways.map (Path.joinAll ['.'])) ∧
        TellsApart sampleProject.disk ⟨{}, .full {}⟩ ['.'] ways :=
  ⟨((shownPaths_identify _).1 _ (by decide) (by decide)).2 (by decide),
    (shownPaths_identify ['.']).2 sampleProject _ wellFormed_sampleProject rfl {} ⟨{}, .full {}⟩⟩

/-- Two files that only a backslash for a slash tells apart. -/
def twins : FileTree :=
  .directory [("b\\c.rs".toList, .file []), ("b".toList, .directory [("c.rs".toList, .file [])])]

theorem wellFormed_twins : twins.WellFormed := by
  refine .directory (by decide) (by decide) ?_
  simp only [List.forall_mem_cons]
  refine ⟨.file [], .directory (by decide) (by decide) ?_, by simp⟩
  simp [FileTree.WellFormed.file []]

/-- A name with a backslash is shown as two names, which need not lead back to the file and can be those of another
one. -/
theorem not_shownPaths_identify_twins :
    (¬ ∀ base path : Text, Path.components base <+: Path.components path → Path.components base ≠ Path.components path →
      Path.components (Path.rejoin base (shownPath base path)) = Path.components path) ∧
    ¬ ∀ (tree : FileTree) (root : Text) (entries : List (Text × FileTree)), tree.WellFormed →
      tree.disk root = .ok (.directory entries) → ∀ (config : Config) (session : Session) (files : List Text),
        CommandLine.filesAt tree.disk config root = .ok files →
          (ofScan tree.disk session root files).shownPaths.Nodup := by
  constructor
  · intro hidentify
    exact absurd (hidentify "/a".toList "/a/b\\c.rs".toList (by decide) (by decide)) (by decide)
  · intro hdistinct
    have hroot : twins.disk ['.'] = .ok twins := rfl
    obtain ⟨ways, hcollect, -, -, hmem, -⟩ := collect_exact wellFormed_twins {} hroot
    have hfiles : CommandLine.filesAt twins.disk {} ['.'] = .ok (ways.map (Path.joinAll ['.'])) := by
      simp only [CommandLine.filesAt, hcollect, hroot]
      rfl
    have hnodup := hdistinct twins ['.'] _ wellFormed_twins hroot {} ⟨{}, .full {}⟩ _ hfiles
    rw [(shownPaths_ofScan_perm hroot _ _).nodup_iff, List.map_map] at hnodup
    have hflat : ["b\\c.rs".toList] ∈ ways := (hmem _).2 ⟨⟨[], rfl⟩, by decide, .rust, by decide +kernel⟩
    have hnested : ["b".toList, "c.rs".toList] ∈ ways := (hmem _).2 ⟨⟨[], rfl⟩, by decide, .rust, by decide +kernel⟩
    exact absurd (List.inj_on_of_nodup_map hnodup hflat hnested (by decide +kernel)) (by decide)

end Report

end Outline
