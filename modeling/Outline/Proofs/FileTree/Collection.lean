import Outline.Proofs.FileTree.Ways
import Outline.Proofs.Registry.Resolution
import Outline.Session.Paths

namespace Outline

namespace Session

variable {config : Config}

theorem eq_of_start {registry : Registry} {session : Session} (hstart : start config registry = .ok session) :
    session = ⟨config, registry⟩ := by
  unfold start Config.validate at hstart
  cases hdefect : config.defect? with
  | some message => simp [hdefect] at hstart
  | none => simpa [hdefect, eq_comm] using hstart

/-- In a session with every scanner, a file whose path has a language can only be unreadable, no text, or
one over which the scanner breaks down. -/
theorem scanPath_fault_cases {path : Text} {language : Language}
    (hlanguage : (Registry.full config).languageOf path = .ok language) {disk : Disk} {cache : Cache}
    {fault : Fault}
    (hfault : (Session.scanPath ⟨config, .full config⟩ disk cache path).1 = .error fault) :
    (∃ reason, fault = .unreadable (String.ofList path) reason) ∨
      (∃ offset, fault = .undecodable (String.ofList path) offset) ∨
        ∃ message, fault = .brokenScanner (String.ofList path) message := by
  unfold scanPath Source.read at hfault
  cases hread : disk.read path with
  | error reason =>
    rw [hread] at hfault
    exact .inl ⟨reason.message, (Except.error.inj hfault).symm⟩
  | ok bytes =>
    rw [hread] at hfault
    dsimp only [scan, prepare] at hfault
    cases hdecode : Utf8.decode bytes with
    | error offset =>
      rw [hdecode] at hfault
      exact .inr (.inl ⟨offset, (Except.error.inj hfault).symm⟩)
    | ok content =>
      rw [hdecode] at hfault
      dsimp only at hfault
      rw [String.toList_ofList, hlanguage] at hfault
      dsimp only at hfault
      split at hfault
      · simp at hfault
      · cases hparse : (Scanner.ofGrammar config.limits language).parse config.extractImports
            content.dropOrderMark with
        | error message =>
          simp only [perform, Registry.full, Scanner.outline, hparse] at hfault
          exact .inr (.inr ⟨message, (Except.error.inj hfault).symm⟩)
        | ok found => simp [perform, Registry.full, Scanner.outline, hparse] at hfault

end Session

theorem Config.covers_iff {config : Config} {path : Text} : config.covers path = true ↔
    ∃ language, config.languageOf? ((Path.extension? path).getD []) = some language := by
  rw [covers, Option.isSome_iff_exists]

namespace FileTree

theorem isPassedOver_eq_false_iff {name : Text} : isPassedOver name = false ↔
    name.head? ≠ some '.' ∧ name ∉ ["target".toList, "node_modules".toList, "vendor".toList] := by
  cases name <;> simp [isPassedOver, Text.startsWhere, foreignDirectories]

/-- Different ways below a directory that a path leads to have different paths. -/
theorem WellFormed.nodup_paths {node : FileTree} (hnode : node.WellFormed) {root : Text} (hroot : root ≠ []) :
    (node.ways.map (Path.joinAll root)).Nodup := by
  have hnames : ∀ way ∈ node.ways, ∀ name ∈ way, name ≠ [] ∧ '/' ∉ name := by
    intro way hway name hname
    obtain ⟨⟨bytes, hfile⟩, _⟩ := hnode.mem_ways_iff.1 hway
    have hentry := hnode.isEntryName_of_descend? hfile name hname
    exact ⟨hentry.ne_nil, hentry.not_slash_mem⟩
  refine List.Nodup.map_on ?_ (hnode.pairwise_ways.imp Before.ne)
  intro way hway way' hway' heq
  exact Path.joinAll_injective hroot (hnames way hway) (hnames way' hway') heq

end FileTree

/-- A collection holds exactly the ways from the root to files that enter no hidden or foreign directory
and whose extension has a language, in the order that compares their names by bytes from the first on,
and no path twice. In a session under the same settings none of these files lacks a language. -/
theorem collect_exact {tree : FileTree} (htree : tree.WellFormed) (config : Config) {root : Text}
    {node : FileTree} (hroot : tree.disk root = .ok node) :
    ∃ ways : List (List Text),
      collect tree.disk config root = .ok (ways.map (Path.joinAll root)) ∧
      ways.Pairwise FileTree.Before ∧ (ways.map (Path.joinAll root)).Nodup ∧
      (∀ way, way ∈ ways ↔ (∃ bytes, node.descend? way = some (.file bytes)) ∧
        (∀ name ∈ way.dropLast, name.head? ≠ some '.' ∧
          name ∉ ["target".toList, "node_modules".toList, "vendor".toList]) ∧
        ∃ language, config.languageOf? ((Path.extension? (Path.joinAll root way)).getD []) = some language) ∧
      ∀ session, Session.start config (.full config) = .ok session → ∀ way ∈ ways, ∀ cache fault,
        (session.scanPath tree.disk cache (Path.joinAll root way)).1 = .error fault →
          fault.tag ≠ "unsupported_language" := by
  obtain ⟨hpath, hnode⟩ := htree.of_disk hroot
  refine ⟨node.ways.filter fun way => config.covers (Path.joinAll root way), ?_, ?_, ?_, ?_, ?_⟩
  · rw [collect, hroot]
    dsimp only
    rw [FileTree.files_eq_map, List.filter_map]
    rfl
  · exact hnode.pairwise_ways.filter _
  · exact (hnode.nodup_paths hpath).sublist (List.filter_sublist.map _)
  · intro way
    simp only [List.mem_filter, hnode.mem_ways_iff, FileTree.isPassedOver_eq_false_iff, Config.covers_iff,
      and_assoc]
  · intro session hstart way hway cache fault hfault
    have hcovered := Config.covers_iff.1 (List.mem_filter.1 hway).2
    obtain ⟨language, hlanguage⟩ := (Registry.exists_languageOf_full_iff config _).2 hcovered
    obtain rfl := Session.eq_of_start hstart
    rcases Session.scanPath_fault_cases hlanguage hfault with ⟨reason, rfl⟩ | ⟨offset, rfl⟩ | ⟨message, rfl⟩
    · simp [Fault.tag]
    · simp [Fault.tag]
    · simp [Fault.tag]

/-- A directory with a hidden file, a repository, foreign code and a directory that comes first only by
its bytes. -/
def sampleProject : FileTree :=
  .directory [("b.rs".toList, .file []), (".git".toList, .directory [("hook.py".toList, .file [])]),
    (".a.py".toList, .file []), ("vendor".toList, .directory [("v.go".toList, .file [])]),
    ("B".toList, .directory [("z.c".toList, .file []), ("note.txt".toList, .file [])])]

theorem wellFormed_sampleProject : sampleProject.WellFormed := by
  have hfile := FileTree.WellFormed.file []
  refine .directory (by decide) (by decide) ?_
  simp only [List.forall_mem_cons]
  refine ⟨hfile, .directory (by decide) (by decide) ?_, hfile, .directory (by decide) (by decide) ?_,
    .directory (by decide) (by decide) ?_, by simp⟩ <;> simp [hfile]

/-- The collection of this directory from inside it: a hidden file counts and what a repository or
foreign code holds does not. -/
theorem collect_exact_sampleProject :
    ∃ ways : List (List Text), collect sampleProject.disk {} ['.'] = .ok (ways.map (Path.joinAll ['.'])) ∧
      ways.Pairwise FileTree.Before ∧ (ways.map (Path.joinAll ['.'])).Nodup ∧
      [".a.py".toList] ∈ ways ∧ ["B".toList, "z.c".toList] ∈ ways ∧
      [".git".toList, "hook.py".toList] ∉ ways ∧ ["vendor".toList, "v.go".toList] ∉ ways ∧
      ["B".toList, "note.txt".toList] ∉ ways ∧
      ∃ session, Session.start {} (.full {}) = .ok session ∧ ∀ way ∈ ways, ∀ cache fault,
        (session.scanPath sampleProject.disk cache (Path.joinAll ['.'] way)).1 = .error fault →
          fault.tag ≠ "unsupported_language" := by
  have hroot : sampleProject.disk ['.'] = .ok sampleProject := by rfl
  obtain ⟨ways, hcollect, horder, hdistinct, hmem, hscanned⟩ :=
    collect_exact wellFormed_sampleProject {} hroot
  refine ⟨ways, hcollect, horder, hdistinct, ?_, ?_, ?_, ?_, ?_, _, rfl, hscanned _ rfl⟩
  · exact (hmem _).2 ⟨⟨[], rfl⟩, by decide, .python, by decide +kernel⟩
  · exact (hmem _).2 ⟨⟨[], rfl⟩, by decide, .c, by decide +kernel⟩
  · exact fun hway => absurd ((hmem _).1 hway).2.1 (by decide)
  · exact fun hway => absurd ((hmem _).1 hway).2.1 (by decide)
  · intro hway
    obtain ⟨language, hlanguage⟩ := ((hmem _).1 hway).2.2
    have hnone : Config.languageOf? {} ((Path.extension? (Path.joinAll ['.']
        ["B".toList, "note.txt".toList])).getD []) = none := by
      decide +kernel
    rw [hnone] at hlanguage
    simp at hlanguage

end Outline
