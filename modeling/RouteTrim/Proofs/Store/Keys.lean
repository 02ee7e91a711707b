import RouteTrim.Proofs.Path.Placed
import RouteTrim.Proofs.Store.History
import RouteTrim.Proofs.Store.Listing

/-!
# What a store goes by

A store keeps its files under normal paths. What that means is said without the walk that leads
there: the slashes of an anchor, levels up that only a relative path has and only in front, and
plain names (`IsNormal`). Just these paths are left as they are by normalizing
(`normalize_eq_self_iff`), and every key of a store is one of them, however the store came about
(`hasNormalKeys_run`).

So a store does the same for all spellings of a path (`SameEntry`). A disk does not: it follows `..`
where it stands, through folders that must be there, and takes a backslash for part of a name.
Reading a file from disk therefore goes by the path as it is given, less what leads nowhere, and
only the entry goes by the normal path (`entries_by_normal_path`). Where the disk finds the file or
the folder under two spellings without backslashes, it finds the same one.
-/

set_option autoImplicit false

namespace RouteTrim.Path

open RouteTrim.Text

/-! ## Normal paths -/

/-- A path as normalizing leaves it: `.`, or an anchor and segments with single slashes between
them. The segments are plain names, and in front of those levels up if there is no root. -/
def IsNormal (path : String) : Prop :=
  path = "." ∨ path ≠ "" ∧ ∃ anchor levels names, (anchor ≠ .relative → levels = 0) ∧
    (∀ s ∈ names, IsPlain s) ∧
    path.toList = Anchor.text anchor ++ joinWith ['/'] (List.replicate levels up ++ names)

theorem Trail.exists_names {anchor : Anchor} {trail : List Segment} (h : Trail anchor trail) :
    ∃ levels names, (anchor ≠ .relative → levels = 0) ∧ (∀ s ∈ names, IsName s) ∧
      trail.reverse = List.replicate levels Path.up ++ names := by
  induction h with
  | start => exact ⟨0, [], fun _ => rfl, fun s hs => absurd hs List.not_mem_nil, rfl⟩
  | @up trail relative levels _ _ =>
    refine ⟨trail.length + 1, [], fun rooted => absurd relative rooted,
      fun s hs => absurd hs List.not_mem_nil, ?_⟩
    rw [List.eq_replicate_of_mem levels, List.reverse_cons, List.reverse_replicate,
      List.length_replicate, List.append_nil, List.replicate_succ']
  | @name s trail first _ ih =>
    obtain ⟨levels, names, rooted, rest, spelled⟩ := ih
    refine ⟨levels, names ++ [s], rooted, ?_, ?_⟩
    · exact List.forall_mem_append.2 ⟨rest, List.forall_mem_singleton.2 first⟩
    · rw [List.reverse_cons, spelled, List.append_assoc]

theorem Trail.of_levels {anchor : Anchor} {levels : Nat} {names : List Segment}
    (rooted : anchor ≠ .relative → levels = 0) (h : ∀ s ∈ names, IsName s) :
    Trail anchor (List.replicate levels Path.up ++ names).reverse := by
  induction names using List.reverseRecOn with
  | nil =>
    rw [List.append_nil, List.reverse_replicate]
    induction levels with
    | zero => exact .start
    | succ levels ih =>
      have relative : anchor = .relative := by
        by_contra root
        exact absurd (rooted root) (Nat.succ_ne_zero levels)
      exact .up relative (fun s hs => List.eq_of_mem_replicate hs)
        (ih fun root => absurd relative root)
  | append_singleton names s ih =>
    obtain ⟨rest, first⟩ := List.forall_mem_append.1 h
    rw [← List.append_assoc, List.reverse_append]
    exact .name (first s (List.mem_singleton_self s)) (ih rest)

theorem isNormal_normalize (path : String) : IsNormal (normalize path) := by
  obtain ⟨anchor, trail, walked, spelled⟩ := trail_normalize path
  obtain ⟨levels, names, rooted, isName, segments⟩ := walked.exists_names
  rw [segments, Location.toPath] at spelled
  dsimp only at spelled
  split at spelled
  · exact .inl (String.toList_injective spelled)
  · next filled =>
    refine .inr ⟨?_, anchor, levels, names, rooted,
      fun s hs => ⟨isName s hs, fun found => ?_⟩, spelled⟩
    · intro empty
      rw [← spelled, empty] at filled
      exact filled rfl
    · have plain := plain_normalize path
      rw [spelled] at plain
      exact plain (List.mem_append_right _
        (mem_joinWith_of_mem (List.mem_append_right _ hs) found))

/-- **Normalizing leaves just the normal paths as they are.** -/
theorem normalize_eq_self_iff {path : String} : normalize path = path ↔ IsNormal path := by
  constructor
  · intro same
    rw [← same]
    exact isNormal_normalize path
  · rintro (rfl | ⟨filled, anchor, levels, names, rooted, plain, spelled⟩)
    · decide
    · have walked := Trail.of_levels rooted fun s hs => (plain s hs).1
      have read := ofPath_toPath walked
      rw [List.reverse_reverse] at read
      have text : (Location.mk anchor (List.replicate levels up ++ names)).toPath = path.toList := by
        rw [Location.toPath, ← spelled, if_neg]
        simpa using filled
      have unslashed : backslash ∉ path.toList := by
        rw [← text]
        refine plain_toPath fun s hs => ?_
        rcases List.mem_append.1 hs with level | name
        · rw [List.eq_of_mem_replicate level]
          decide
        · exact (plain s name).2
      refine String.toList_injective ?_
      rw [normalize, String.toList_ofList, normalizeChars_of_plain unslashed, ← text, read]

end RouteTrim.Path

namespace RouteTrim.FileStore

open RouteTrim.Path (Segment IsName IsNormal Anchor Location OpensSlashed locationOf slashed tidy normalize_eq_iff normalize_normalize WorkingFolder)
open RouteTrim.Text (backslash)

variable {store : FileStore} {disk : Disk} {path other : String}

/-! ## Keys -/

/-- Every file is kept under a normal path. -/
def HasNormalKeys (store : FileStore) : Prop :=
  ∀ key ∈ store.paths, Path.normalize key = key

theorem HasNormalKeys.load (h : store.HasNormalKeys) (path text : String) :
    (store.load path text).HasNormalKeys := by
  intro key hkey
  rcases mem_keys_insert hkey with rfl | old
  · exact normalize_normalize path
  · exact h key old

theorem hasNormalKeys_ofList (files : List (String × String)) : (ofList files).HasNormalKeys := by
  intro key hkey
  obtain ⟨text, stored⟩ := Option.isSome_iff_exists.1 ((OrderedMap.contains_iff_mem_keys ..).2 hkey)
  obtain ⟨path, -, rfl⟩ := get?_ofList stored
  exact normalize_normalize path

/-- Every call keeps the keys normal. -/
theorem HasNormalKeys.apply [WorkingFolder] (h : store.HasNormalKeys) (event : Event) :
    (event.apply store).HasNormalKeys := by
  have outcome := event.outcome store
  generalize event.apply store = after at outcome ⊢
  cases outcome with
  | made files => exact hasNormalKeys_ofList files
  | set path text | loaded path text => exact h.load path text
  | written | kept => exact h

theorem hasNormalKeys_run [WorkingFolder] (past : List Event) : (run past).HasNormalKeys := by
  induction past using List.reverseRecOn with
  | nil => exact fun key hkey => absurd hkey List.not_mem_nil
  | append_singleton past event ih =>
    rw [run_snoc]
    exact ih.apply event

/-! ## Spellings of a file's path -/

/-- Two paths by which a store reads and writes one entry. -/
structure SameEntry (store : FileStore) (path other : String) : Prop where
  get? : store.get? path = store.get? other
  contains : store.contains path = store.contains other
  content : store.content path = store.content other
  load : ∀ text, store.load path text = store.load other text
  set : ∀ text, store.set path text = store.set other text
  /-- What was set by one of them is read by the other. -/
  get?_set : ∀ text, (store.set path text).get? other = some text

theorem sameEntry
    (same : Path.normalize path = Path.normalize other) : store.SameEntry path other where
  get? := by rw [FileStore.get?, FileStore.get?, same]
  contains := by rw [FileStore.contains, FileStore.contains, same]
  content := by rw [FileStore.content, FileStore.content, FileStore.get?, FileStore.get?, same]
  load text := by rw [FileStore.load, FileStore.load, same]
  set text := by rw [FileStore.set, FileStore.set, same]
  get?_set text := by rw [FileStore.get?_set, if_pos same.symm]

/-! ## Spellings on disk -/

/-- A file that is read is read by the normal path, too, and is the same entry then. -/
theorem addFile_normalize [WorkingFolder] (plain : backslash ∉ path.toList)
    {result : String × FileStore}
    (h : store.addFile disk path = .ok result) :
    store.addFile disk (Path.normalize path) = .ok result := by
  obtain ⟨text, after⟩ := result
  obtain ⟨read, rfl⟩ := addFile_eq_ok.1 h
  have spelled := Path.normalize_tidy plain
  have again := Disk.readText_normalize (Path.plain_tidy plain) read
  rw [addFile_eq_ok, Path.tidy_normalize, ← spelled]
  refine ⟨again, (sameEntry ?_).load text⟩
  rw [normalize_normalize]

theorem anchor_locationOf (plain : backslash ∉ path.toList) :
    (locationOf path).anchor = Anchor.ofPath path.toList := by
  rw [locationOf, Path.map_slash_of_plain plain, Location.ofPath]

theorem locationOf_pathBelow {root : String} (plain : backslash ∉ root.toList) {way : List Segment}
    (ne : way ≠ []) (names : ∀ s ∈ way, IsName s) (plainWay : ∀ s ∈ way, backslash ∉ s) :
    locationOf (pathBelow (tidy root) way)
      = ⟨(locationOf (tidy root)).anchor, (locationOf (tidy root)).segments ++ way⟩ := by
  have tidied := Path.plain_tidy plain
  rw [← Path.segments_pathBelow root ne names plainWay, anchor_locationOf tidied,
    ← anchor_pathBelow (tidy root) names, ← anchor_locationOf (plain_pathBelow tidied plainWay)]

/-- Files make the same store under the normal spellings of their paths. -/
theorem ofList_normalized (files : List (String × String)) :
    ofList (files.map fun file => (Path.normalize file.1, file.2)) = ofList files := by
  have made (files : List (String × String)) : ofList files
      = ⟨.ofList (files.map fun file => (Path.normalize file.1, file.2)), []⟩ := by
    rw [← files_ofList, ← dirty_ofList files]
  rw [made, made files, List.map_map]
  simp only [Function.comp_def, normalize_normalize]

theorem names_of_mem_filesBelow (tree : disk.IsTree) (unslashed : disk.HasPlainNames)
    {folder way : List Segment} {bytes : ByteArray} (isFolder : disk.itemAt? folder = some .folder)
    (h : (way, bytes) ∈ disk.filesBelow folder) :
    way ≠ [] ∧ (∀ s ∈ way, IsName s) ∧ ∀ s ∈ way, backslash ∉ s := by
  have listed := Disk.mem_filesBelow.1 h
  have placed : folder ++ way ∈ disk.items.keys := List.mem_map_of_mem listed
  exact ⟨tree.way_ne_nil isFolder listed,
    fun s hs => (tree.names _ placed).2 s (List.mem_append_right _ hs),
    fun s hs => unslashed _ placed s (List.mem_append_right _ hs)⟩

/-- A folder is read by the normal path, too, and makes the same store then. -/
theorem loadTree_normalize [WorkingFolder] (tree : disk.IsTree) (unslashed : disk.HasPlainNames)
    (plain : backslash ∉ path.toList) {folder : List Segment}
    (found : disk.find (tidy path) = .ok (folder, .folder)) (suffixes : List String) :
    loadTree disk (Path.normalize path) suffixes = loadTree disk path suffixes := by
  have spelled := Path.normalize_tidy plain
  obtain ⟨placed, isFolder⟩ := Disk.find_eq_ok.1 found
  have again : disk.find (Path.normalize path) = .ok (folder, .folder) := by
    rw [← spelled]
    exact Disk.find_eq_ok.2 ⟨Disk.placeOf_normalize (Path.plain_tidy plain) placed, isFolder⟩
  have location : locationOf (tidy (Path.normalize path)) = locationOf (tidy path) := by
    rw [Path.tidy_normalize, ← normalize_eq_iff, normalize_normalize, spelled]
  have keyed (files : Except Failure (List (String × String))) : ofList <$> files
      = ofList <$> List.map (fun file => (Path.normalize file.1, file.2)) <$> files := by
    rw [Functor.map_map]
    simp only [ofList_normalized]
  unfold loadTree readTree
  dsimp only
  rw [found, Path.tidy_normalize, again]
  dsimp only
  rw [keyed, keyed (List.mapM _ _), map_mapM_congr]
  rintro ⟨way, bytes⟩ hway
  obtain ⟨ne, names, plainWay⟩ :=
    names_of_mem_filesBelow tree unslashed isFolder (List.mem_filter.1 hway).1
  have same : Path.normalize (pathBelow (Path.normalize path) way)
      = Path.normalize (pathBelow (tidy path) way) := by
    have below := locationOf_pathBelow (Path.plain_normalize path) ne names plainWay
    rw [location, Path.tidy_normalize, ← locationOf_pathBelow plain ne names plainWay] at below
    exact normalize_eq_iff.2 below
  simp only [map_bind, map_pure, same]

/-- A path leads to a folder. -/
def IsFolderAt [WorkingFolder] (disk : Disk) (path : String) : Prop :=
  ∃ folder, disk.find (tidy path) = .ok (folder, .folder)

/-- **A store goes by normal paths, and a disk by paths as they are given.** Normalizing gives a
normal path, leaves such a path as it is and no other one, and every key of a store is one. All
spellings of a path are one entry of a store.

A file is read from disk by the path without what leads nowhere, and kept under the normal spelling
of that. This is the normal spelling of the path itself if both have the same anchor with their
backslashes turned into slashes, in particular if the first step does not start with a backslash.
Two spellings of a path without backslashes that lead to files lead to the same one, and two that
lead to folders lead to the same tree. -/
theorem entries_by_normal_path [WorkingFolder] :
    (∀ path, IsNormal (Path.normalize path) ∧ backslash ∉ (Path.normalize path).toList ∧
        Path.normalize (Path.normalize path) = Path.normalize path ∧
        (Path.normalize path = path ↔ IsNormal path)) ∧
      (∀ past, (run past).HasNormalKeys) ∧
      (∀ (store : FileStore) (path other : String), Path.normalize path = Path.normalize other →
        store.SameEntry path other) ∧
      (∀ (store after : FileStore) (disk : Disk) (path text : String),
        store.addFile disk path = .ok (text, after) ↔
          disk.readText (tidy path) = .ok text ∧ after = store.load (tidy path) text) ∧
      (∀ path, (Path.normalize (tidy path) = Path.normalize path ↔
          Anchor.ofPath (slashed (tidy path).toList) = Anchor.ofPath (slashed path.toList)) ∧
        (¬OpensSlashed path.toList → Path.normalize (tidy path) = Path.normalize path)) ∧
      ∀ (disk : Disk) (path other : String), Path.normalize path = Path.normalize other →
        backslash ∉ path.toList → backslash ∉ other.toList →
        (∀ (store : FileStore) first second, store.addFile disk path = .ok first →
          store.addFile disk other = .ok second → first = second) ∧
        (disk.IsTree → disk.HasPlainNames → IsFolderAt disk path → IsFolderAt disk other →
          ∀ suffixes, loadTree disk path suffixes = loadTree disk other suffixes) := by
  refine ⟨fun path => ⟨Path.isNormal_normalize path, Path.plain_normalize path,
      normalize_normalize path, Path.normalize_eq_self_iff⟩, hasNormalKeys_run,
    fun store path other => sameEntry, fun store after disk path text => addFile_eq_ok,
    fun path => ⟨Path.normalize_tidy_iff, Path.normalize_tidy_of_not_opensSlashed⟩, ?_⟩
  intro disk path other same plain otherPlain
  refine ⟨fun store first second read again => ?_, fun tree unslashed => ?_⟩
  · have normal := addFile_normalize plain read
    rw [same, addFile_normalize otherPlain again] at normal
    exact (Except.ok.inj normal).symm
  · rintro ⟨folder, found⟩ ⟨otherFolder, otherFound⟩ suffixes
    rw [← loadTree_normalize tree unslashed plain found, same,
      loadTree_normalize tree unslashed otherPlain otherFound]

/-- Two spellings of a file and of its folder. -/
theorem entries_by_normal_path_notes :
    (∃ result, empty.addFile notesDisk "/n//a" = .ok result ∧
        empty.addFile notesDisk "/n/../n/a" = .ok result) ∧
      loadTree notesDisk "/n/." [""] = loadTree notesDisk "/n/../n/" [""] ∧
      ∀ store : FileStore, store.SameEntry "/n/m/../a" "/n/./a" := by
  obtain ⟨-, -, entries, reads, -, spellings⟩ := entries_by_normal_path
  have tree : notesDisk.IsTree := ⟨by decide, by decide⟩
  have unslashed : notesDisk.HasPlainNames := by unfold Disk.HasPlainNames; decide
  have files := spellings notesDisk "/n//a" "/n/../n/a" (by decide +kernel) (by decide) (by decide)
  have folders := spellings notesDisk "/n/." "/n/../n/" (by decide +kernel) (by decide) (by decide)
  have first := (reads empty _ notesDisk "/n//a" "one\ntwo").2 ⟨rfl, rfl⟩
  have second := (reads empty _ notesDisk "/n/../n/a" "one\ntwo").2 ⟨rfl, rfl⟩
  refine ⟨⟨_, first, ?_⟩, folders.2 tree unslashed ⟨_, rfl⟩ ⟨_, rfl⟩ [""], fun store => ?_⟩
  · rw [files.1 empty _ _ first second, second]
  · exact entries store _ _ (by decide +kernel)

/-- A disk with a file in a folder and a file whose name starts with a backslash. -/
def slashDisk : Disk where
  items := .ofList [([['n']], .folder), ([['n'], ['a']], .file "one".toUTF8),
    ([[backslash, 'x']], .file "two".toUTF8)]

/-- A file is not found through a folder that is not there, and one whose name starts with a
backslash is kept under a path of its own, where it is not found by the spelling that it was read
by. -/
theorem addFile_by_spelling :
    (Path.normalize "/n/m/../a" = Path.normalize "/n/a" ∧
      (empty.addFile slashDisk "/n/a").isOk = true ∧
      (empty.addFile slashDisk "/n/m/../a").isOk = false) ∧
    Path.normalize "./\\x" = Path.normalize "x" ∧
      ∃ after, empty.addFile slashDisk "./\\x" = .ok ("two", after) ∧ after.paths = ["/x"] ∧
        after.get? "./\\x" = none ∧ after.get? "x" = none := by
  refine ⟨⟨by decide +kernel, rfl, rfl⟩, by decide +kernel, _, addFile_eq_ok.2 ⟨rfl, rfl⟩, ?_⟩
  decide +kernel

end RouteTrim.FileStore
