import Mathlib.Data.List.Nodup
import Mathlib.Data.List.Pairwise
import Outline.FileTree.Collect
import Outline.Proofs.Path.Pieces
import Outline.Proofs.Text.ByteOrder

namespace Outline.FileTree

/-- Names that entries of a directory can have. -/
structure IsEntryName (name : Text) : Prop where
  ne_nil : name ≠ []
  ne_current : name ≠ ['.']
  ne_parent : name ≠ ['.', '.']
  not_slash_mem : '/' ∉ name

instance : DecidablePred IsEntryName := fun name =>
  decidable_of_iff (name ≠ [] ∧ name ≠ ['.'] ∧ name ≠ ['.', '.'] ∧ '/' ∉ name)
    ⟨fun ⟨hsome, hcurrent, hparent, hslash⟩ => ⟨hsome, hcurrent, hparent, hslash⟩,
      fun ⟨hsome, hcurrent, hparent, hslash⟩ => ⟨hsome, hcurrent, hparent, hslash⟩⟩

/-- No directory has two entries of one name, and all names are possible ones. -/
inductive WellFormed : FileTree → Prop where
  | file (bytes : List UInt8) : WellFormed (.file bytes)
  | directory {entries : List (Text × FileTree)} (distinct : (entries.map Prod.fst).Nodup)
      (named : ∀ entry ∈ entries, IsEntryName entry.1) (inside : ∀ entry ∈ entries, WellFormed entry.2) :
      WellFormed (.directory entries)

/-- What a way of names leads to. -/
def descend? : FileTree → List Text → Option FileTree
  | node, [] => some node
  | .file _, _ :: _ => none
  | .directory entries, name :: way => (entries.lookup name).bind fun node => node.descend? way

/-- One way comes before another in a walk: the names are compared by their bytes, from the first on. -/
def Before : List Text → List Text → Prop :=
  List.Lex fun name name' => Utf8.encode name < Utf8.encode name'

section Lookup

variable {entries : List (Text × FileTree)} {name : Text} {node : FileTree}

theorem lookup_eq_some_iff (hdistinct : (entries.map Prod.fst).Nodup) :
    entries.lookup name = some node ↔ (name, node) ∈ entries := by
  induction entries with
  | nil => simp
  | cons entry entries ih =>
    obtain ⟨other, child⟩ := entry
    obtain ⟨hnew, hdistinct⟩ := List.nodup_cons.1 hdistinct
    by_cases hname : name = other
    · subst hname
      have habsent : (name, node) ∉ entries := fun hmem => hnew (List.mem_map.2 ⟨_, hmem, rfl⟩)
      simp [habsent, eq_comm]
    · have hother : (name == other) = false := by simpa using hname
      simp [List.lookup_cons, hother, ih hdistinct, hname]

end Lookup

section Walk

mutual

/-- The ways to the files at and below a node that a walk finds, in its order. -/
def ways : FileTree → List (List Text)
  | .file _ => [[]]
  | .directory entries =>
    ((waysByName entries).mergeSort fun a b => Text.le a.1 b.1).flatMap Prod.snd

/-- For each entry of a directory its name and the ways that lead through it. -/
def waysByName : List (Text × FileTree) → List (Text × List (List Text))
  | [] => []
  | (name, node) :: rest =>
    (name, if node.isDirectory && isPassedOver name then [] else (ways node).map (name :: ·)) ::
      waysByName rest

end

mutual

/-- A walk lists the paths of its ways. -/
theorem files_eq_map (path : Text) : ∀ node : FileTree, files path node = (ways node).map (Path.joinAll path)
  | .file _ => rfl
  | .directory entries => by
    have hsorted := List.map_mergeSort
      (r := fun a b : Text × List (List Text) => Text.le a.1 b.1) (s := fun a b => Text.le a.1 b.1)
      (f := fun found => (found.1, found.2.map (Path.joinAll path))) (l := waysByName entries)
      fun _ _ _ _ => rfl
    rw [files, ways, filesByName_eq_map path entries, ← hsorted, List.flatMap_map, List.map_flatMap]

theorem filesByName_eq_map (path : Text) : ∀ entries : List (Text × FileTree),
    filesByName path entries =
      (waysByName entries).map fun found => (found.1, found.2.map (Path.joinAll path))
  | [] => rfl
  | (name, node) :: rest => by
    rw [filesByName, waysByName, List.map_cons, filesByName_eq_map path rest]
    split
    · rfl
    · rw [files_eq_map (Path.join path name) node, List.map_map]
      rfl

end

/-- For each entry of a directory its name and the ways that lead through it, in the order of a walk. -/
def waysInOrder (entries : List (Text × FileTree)) : List (Text × List (List Text)) :=
  (waysByName entries).mergeSort fun a b => Text.le a.1 b.1

theorem ways_directory (entries : List (Text × FileTree)) :
    ways (.directory entries) = (waysInOrder entries).flatMap Prod.snd := by
  rw [ways, waysInOrder]

theorem waysByName_eq_map (entries : List (Text × FileTree)) :
    waysByName entries = entries.map fun entry =>
      (entry.1, if entry.2.isDirectory && isPassedOver entry.1 then []
        else (ways entry.2).map (entry.1 :: ·)) := by
  induction entries with
  | nil => rfl
  | cons entry entries ih => rw [waysByName, ih, List.map_cons]

/-- Ways lead through an entry unless it is passed over, and begin with its name. -/
theorem mem_waysInOrder {entries : List (Text × FileTree)} {found : Text × List (List Text)} :
    found ∈ waysInOrder entries ↔ ∃ entry ∈ entries,
      (entry.1, if entry.2.isDirectory && isPassedOver entry.1 then []
        else (ways entry.2).map (entry.1 :: ·)) = found := by
  rw [waysInOrder, List.mem_mergeSort, waysByName_eq_map, List.mem_map]

theorem mem_ways_directory {entries : List (Text × FileTree)} {way : List Text} :
    way ∈ ways (.directory entries) ↔ ∃ entry ∈ entries,
      (entry.2.isDirectory && isPassedOver entry.1) = false ∧ ∃ rest ∈ ways entry.2, entry.1 :: rest = way := by
  rw [ways_directory, List.mem_flatMap]
  constructor
  · rintro ⟨found, hfound, hway⟩
    obtain ⟨entry, hentry, rfl⟩ := mem_waysInOrder.1 hfound
    dsimp only at hway
    split at hway
    · simp at hway
    · next henter => exact ⟨entry, hentry, by simpa using henter, List.mem_map.1 hway⟩
  · rintro ⟨entry, hentry, henter, hrest⟩
    refine ⟨_, mem_waysInOrder.2 ⟨entry, hentry, rfl⟩, ?_⟩
    rw [henter]
    exact List.mem_map.2 hrest

end Walk

variable {node : FileTree}

/-- Whether an entry is entered concerns the names before the last on a way to a file, as only a file is
the end of such a way. -/
theorem entered_iff_of_descend? {name : Text} {rest : List Text} {bytes : List UInt8}
    (hfile : node.descend? rest = some (.file bytes)) :
    ((node.isDirectory && isPassedOver name) = false ∧ ∀ other ∈ rest.dropLast, isPassedOver other = false) ↔
      ∀ other ∈ (name :: rest).dropLast, isPassedOver other = false := by
  cases rest with
  | nil =>
    obtain rfl := Option.some.inj hfile
    simp [isDirectory]
  | cons next rest =>
    cases node with
    | file _ => simp [descend?] at hfile
    | directory entries => simp [isDirectory]

/-- A walk finds exactly the ways to files that enter no directory to be passed over. -/
theorem WellFormed.mem_ways_iff (hnode : node.WellFormed) {way : List Text} :
    way ∈ node.ways ↔ (∃ bytes, node.descend? way = some (.file bytes)) ∧
      ∀ name ∈ way.dropLast, isPassedOver name = false := by
  induction hnode generalizing way with
  | file bytes => cases way <;> simp [ways, descend?]
  | @directory entries distinct named inside ih =>
    cases way with
    | nil => simp [mem_ways_directory, descend?]
    | cons name rest =>
      rw [mem_ways_directory]
      constructor
      · rintro ⟨⟨name, child⟩, hentry, henter, rest, hrest, heq⟩
        obtain ⟨rfl, rfl⟩ := List.cons.inj heq.symm
        obtain ⟨⟨bytes, hfile⟩, hpassed⟩ := (ih _ hentry).1 hrest
        refine ⟨⟨bytes, ?_⟩, (entered_iff_of_descend? hfile).1 ⟨henter, hpassed⟩⟩
        rw [descend?, (lookup_eq_some_iff distinct).2 hentry, Option.bind_some]
        exact hfile
      · rintro ⟨⟨bytes, hfile⟩, hpassed⟩
        rw [descend?] at hfile
        obtain ⟨child, hlookup, hfile⟩ := Option.bind_eq_some_iff.1 hfile
        have hentry := (lookup_eq_some_iff distinct).1 hlookup
        obtain ⟨henter, hinner⟩ := (entered_iff_of_descend? hfile).2 hpassed
        exact ⟨(name, child), hentry, henter, rest, (ih _ hentry).2 ⟨⟨bytes, hfile⟩, hinner⟩, rfl⟩

/-- The entries of a directory are walked by the bytes of their names. -/
theorem pairwise_waysInOrder {entries : List (Text × FileTree)}
    (hdistinct : (entries.map Prod.fst).Nodup) :
    (waysInOrder entries).Pairwise fun a b => Utf8.encode a.1 < Utf8.encode b.1 := by
  have hsorted : (waysInOrder entries).Pairwise fun a b => Text.le a.1 b.1 = true := by
    refine List.pairwise_mergeSort ?_ ?_ _
    · intro a b c
      exact Text.le_trans
    · intro a b
      exact Text.le_total a.1 b.1
  have hnames : (waysByName entries).map Prod.fst = entries.map Prod.fst := by
    rw [waysByName_eq_map, List.map_map]
    rfl
  have hperm := (List.mergeSort_perm (waysByName entries) fun a b => Text.le a.1 b.1).map Prod.fst
  have hdifferent : (waysInOrder entries).Pairwise fun a b => a.1 ≠ b.1 := by
    rw [← List.pairwise_map, ← List.nodup_iff_pairwise_ne, waysInOrder, hperm.nodup_iff, hnames]
    exact hdistinct
  exact hsorted.imp₂ (fun a b hle hne => Utf8.encode_lt_of_le hle hne) hdifferent

/-- A walk is depth first, with the entries of each directory by name. -/
theorem WellFormed.pairwise_ways (hnode : node.WellFormed) : node.ways.Pairwise Before := by
  induction hnode with
  | file bytes => exact List.pairwise_singleton _ _
  | @directory entries distinct named inside ih =>
    rw [ways_directory, List.pairwise_flatMap]
    constructor
    · intro found hfound
      obtain ⟨entry, hentry, rfl⟩ := mem_waysInOrder.1 hfound
      dsimp only
      split
      · exact .nil
      · exact (ih entry hentry).map _ fun _ _ hbefore => .cons hbefore
    · have hfirst : ∀ found ∈ waysInOrder entries, ∀ way ∈ found.2, ∃ rest, way = found.1 :: rest := by
        intro found hfound way hway
        obtain ⟨entry, hentry, rfl⟩ := mem_waysInOrder.1 hfound
        dsimp only at hway
        split at hway
        · simp at hway
        · obtain ⟨rest, _, rfl⟩ := List.mem_map.1 hway
          exact ⟨rest, rfl⟩
      refine (pairwise_waysInOrder distinct).imp_of_mem fun hfound hfound' hlt way hway way' hway' => ?_
      obtain ⟨rest, rfl⟩ := hfirst _ hfound way hway
      obtain ⟨rest', rfl⟩ := hfirst _ hfound' way' hway'
      exact .rel hlt

theorem Before.ne {way way' : List Text} (hbefore : Before way way') : way ≠ way' := by
  rintro rfl
  exact List.lex_irrefl (fun name => List.lt_irrefl (Utf8.encode name)) way hbefore

/-- All names on a way are names of entries. -/
theorem WellFormed.isEntryName_of_descend? (hnode : node.WellFormed) {way : List Text} {found : FileTree}
    (hfound : node.descend? way = some found) : ∀ name ∈ way, IsEntryName name := by
  induction way generalizing node with
  | nil => simp
  | cons name way ih =>
    cases hnode with
    | file bytes => simp [descend?] at hfound
    | directory distinct named inside =>
      rw [descend?] at hfound
      obtain ⟨child, hlookup, hfound⟩ := Option.bind_eq_some_iff.1 hfound
      have hentry := (lookup_eq_some_iff distinct).1 hlookup
      exact List.forall_mem_cons.2 ⟨named _ hentry, ih (inside _ hentry) hfound⟩

theorem wellFormed_emptyDirectory : emptyDirectory.WellFormed :=
  @WellFormed.directory [] List.nodup_nil (by simp) (by simp)

theorem WellFormed.follow (hnode : node.WellFormed) {ancestors : List FileTree}
    (hancestors : ∀ ancestor ∈ ancestors, ancestor.WellFormed) {pieces : List Text} {found : FileTree}
    (hfound : FileTree.follow ancestors node pieces = .ok found) : found.WellFormed := by
  induction pieces generalizing node ancestors with
  | nil =>
    rw [FileTree.follow] at hfound
    exact Except.ok.inj hfound ▸ hnode
  | cons piece pieces ih =>
    cases hnode with
    | file bytes => simp [FileTree.follow] at hfound
    | @directory entries distinct named inside =>
      have hhere : WellFormed (.directory entries) := .directory distinct named inside
      simp only [FileTree.follow] at hfound
      split at hfound
      · exact ih hhere hancestors hfound
      · split at hfound
        · split at hfound
          · exact ih wellFormed_emptyDirectory (by simp) hfound
          · obtain ⟨hparent, holder⟩ := List.forall_mem_cons.1 hancestors
            exact ih hparent holder hfound
        · split at hfound
          · simp at hfound
          · split at hfound
            · simp at hfound
            · next child hlookup =>
              have hentry := (lookup_eq_some_iff distinct).1 hlookup
              exact ih (inside _ hentry) (List.forall_mem_cons.2 ⟨hhere, hancestors⟩) hfound

/-- Paths that lead somewhere are not empty, and lead to well-formed nodes. -/
theorem WellFormed.of_disk {tree : FileTree} (htree : tree.WellFormed) {path : Text}
    (hfound : tree.disk path = .ok node) : path ≠ [] ∧ node.WellFormed := by
  unfold disk at hfound
  split at hfound
  · simp at hfound
  · split at hfound
    · simp at hfound
    · split at hfound
      · simp at hfound
      · exact ⟨List.cons_ne_nil _ _, wellFormed_emptyDirectory.follow (by simp) hfound⟩
      · next hsome _ => exact ⟨hsome, htree.follow (by simp) hfound⟩

end Outline.FileTree
