import RouteTrim.Proofs.Failure
import RouteTrim.Proofs.Path.Tidy
import RouteTrim.Proofs.Store.Place

/-!
# What is read into a store

Every text of a store that was read from a tree is the text of a file, and the path it is stored
under leads to that file. The path is put together from the folder that was asked for and the way
below it, and normalized without a look at the disk, so this needs what `Proofs.Store.Place` says
about spellings.
-/

set_option autoImplicit false

namespace RouteTrim

open RouteTrim.Path
open RouteTrim.Text

/-! ## Paths that go on -/

theorem plain_pathBelow {root : String} {way : List Segment} (hroot : backslash ∉ root.toList)
    (hway : ∀ s ∈ way, backslash ∉ s) : backslash ∉ (FileStore.pathBelow root way).toList := by
  have joined := plain_joinWith hway
  rw [FileStore.pathBelow, String.toList_ofList]
  split
  · exact joined
  · exact plain_joinChars hroot joined

theorem anchor_joinChars (path : List Char) {next : List Char} (head : next.head? ≠ some '/') :
    Anchor.ofPath (joinChars path next) = Anchor.ofPath path := by
  have bare (anchor : Anchor) : Anchor.ofPath (anchor.text ++ next) = anchor :=
    ofPath_text_append anchor head
  rw [joinChars, if_neg head]
  rcases path with _ | ⟨a, _ | ⟨b, _ | ⟨c, path⟩⟩⟩
  · exact bare .relative
  · by_cases ha : a = '/'
    · subst ha
      exact bare .root
    · simp [Anchor.ofPath, ha]
  · by_cases ha : a = '/'
    · subst ha
      by_cases hb : b = '/'
      · subst hb
        exact bare .doubleRoot
      · simp [Anchor.ofPath, hb]
    · split <;> simp [Anchor.ofPath, ha]
  · -- Three characters settle what a path starts from.
    have kept (rest : List Char) : Anchor.ofPath (a :: b :: c :: path ++ rest)
        = Anchor.ofPath (a :: b :: c :: path) := by
      by_cases ha : a = '/' <;> by_cases hb : b = '/' <;> by_cases hc : c = '/' <;>
        simp [Anchor.ofPath, ha, hb, hc]
    split
    · exact kept next
    · exact kept ('/' :: next)

theorem anchor_pathBelow (root : String) {way : List Segment} (names : ∀ s ∈ way, IsName s) :
    Anchor.ofPath (FileStore.pathBelow root way).toList = Anchor.ofPath root.toList := by
  have head := head_joinWith fun s hs => (names s hs).1
  rw [FileStore.pathBelow, String.toList_ofList]
  split
  · next hhere =>
    rw [hhere]
    exact ofPath_text_append .relative head
  · exact anchor_joinChars _ head

namespace Disk

variable {disk : Disk}

/-- A file is read under the normal spelling of its path, too. -/
theorem readText_normalize [WorkingFolder] {path text : String} (plain : backslash ∉ path.toList)
    (h : disk.readText path = .ok text) : disk.readText (Path.normalize path) = .ok text := by
  obtain ⟨place, bytes, hplace, item, decoded⟩ := readText_eq_ok.1 h
  exact readText_eq_ok.2 ⟨place, bytes, placeOf_normalize plain hplace, item, decoded⟩

end Disk

namespace FileStore

variable {disk : Disk} {store : FileStore} {root : String} {suffixes : List String}

theorem content_eq_ok {path text : String} :
    store.content path = .ok text ↔ store.get? path = some text := by
  unfold FileStore.content
  cases store.get? path <;> simp

theorem addFile_eq_ok [WorkingFolder] {after : FileStore} {path text : String} :
    store.addFile disk path = .ok (text, after) ↔
      disk.readText (tidy path) = .ok text ∧ after = store.load (tidy path) text := by
  unfold FileStore.addFile
  rw [bind_eq_ok]
  constructor
  · rintro ⟨read, hread, h⟩
    obtain ⟨rfl, rfl⟩ := Prod.mk.inj (Except.ok.inj h)
    exact ⟨hread, rfl⟩
  · rintro ⟨hread, rfl⟩
    exact ⟨text, hread, rfl⟩

theorem get?_loadAll (files : List (String × String)) {key content : String}
    (h : (files.foldl (fun store (path, content) => store.load path content) store).files.get? key
      = some content) :
    store.files.get? key = some content ∨
      ∃ path, (path, content) ∈ files ∧ key = Path.normalize path := by
  induction files generalizing store with
  | nil => exact .inl h
  | cons file files ih =>
    obtain ⟨first, text⟩ := file
    rcases ih h with stored | ⟨path, hpath, hkey⟩
    · have stored :=
        (OrderedMap.get?_insert store.files (Path.normalize first) key text).symm.trans stored
      split at stored
      · next hkey =>
        obtain rfl := Option.some.inj stored
        exact .inr ⟨first, List.mem_cons_self .., hkey⟩
      · exact .inl stored
    · exact .inr ⟨path, List.mem_cons_of_mem _ hpath, hkey⟩

theorem get?_ofList {files : List (String × String)} {key content : String}
    (h : (ofList files).files.get? key = some content) :
    ∃ path, (path, content) ∈ files ∧ key = Path.normalize path := by
  rcases get?_loadAll files h with stored | found
  · exact absurd stored (by simp [FileStore.empty])
  · exact found

theorem paths_load (store : FileStore) (path content : String) :
    (store.load path content).paths = if Path.normalize path ∈ store.paths then store.paths
      else store.paths ++ [Path.normalize path] :=
  OrderedMap.keys_insert ..

theorem dirty_ofList (files : List (String × String)) : (ofList files).dirty = [] := by
  suffices h : ∀ store : FileStore, store.dirty = [] →
      (files.foldl (fun store (path, content) => store.load path content) store).dirty = [] from
    h _ rfl
  induction files with
  | nil => exact fun _ h => h
  | cons file files ih => exact fun store h => ih (store.load file.1 file.2) h

theorem mem_dirtyPaths {path : String} :
    path ∈ store.dirtyPaths ↔ path ∈ store.paths ∧ path ∈ store.dirty := by
  simp [dirtyPaths]

theorem dirtyPaths_sublist (store : FileStore) : store.dirtyPaths.Sublist store.paths :=
  List.filter_sublist

theorem nodup_dirtyPaths (store : FileStore) : store.dirtyPaths.Nodup :=
  store.files.nodup.sublist store.dirtyPaths_sublist

theorem mem_paths_of_get? {path content : String} (h : store.files.get? path = some content) :
    path ∈ store.paths :=
  (OrderedMap.contains_iff_mem_keys ..).1 (Option.isSome_of_eq_some h)

/-- A tree is read in the order in which its disk lists the files, if that is the order of their
ways. -/
theorem loadTree_of_sorted [WorkingFolder] {folder : List Segment}
    {files : List (List Segment × ByteArray)}
    (found : disk.find (tidy root) = .ok (folder, .folder))
    (listed : (disk.items.entries.filterMap fun (place, item) =>
      match Disk.below? folder place, item with
      | some way, .file bytes => some (way, bytes)
      | _, _ => none) = files)
    (sorted : files.Pairwise fun a b => ¬ b.1 < a.1) :
    loadTree disk root suffixes
      = ofList <$> ((files.filter fun file => isWanted suffixes file.1).mapM fun file => do
          return (pathBelow (tidy root) file.1, ← Disk.textOf file.2) : Except Failure _) := by
  have filesBelow : disk.filesBelow folder = files := by
    have sorted : files.mergeSort (fun a b => !decide (b.1 < a.1)) = files :=
      List.mergeSort_of_pairwise (sorted.imp fun h => by simpa using h)
    exact (congrArg (List.mergeSort · fun a b => !decide (b.1 < a.1)) listed).trans sorted
  unfold loadTree readTree
  dsimp only
  rw [found]
  dsimp only
  rw [filesBelow]

theorem loadTree_eq_ok [WorkingFolder] : loadTree disk root suffixes = .ok store ↔
    ∃ files, readTree disk root suffixes = .ok files ∧ ofList files = store := by
  unfold loadTree
  cases readTree disk root suffixes <;> simp [Functor.map, Except.map]

theorem dirty_loadTree [WorkingFolder]
    (h : loadTree disk root suffixes = .ok store) : store.dirty = [] := by
  obtain ⟨files, -, rfl⟩ := loadTree_eq_ok.1 h
  exact dirty_ofList files

theorem mem_readTree [WorkingFolder] (tree : disk.IsTree) {files : List (String × String)}
    (h : readTree disk root suffixes = .ok files) {path content : String}
    (hmem : (path, content) ∈ files) :
    ∃ folder way, path = pathBelow (tidy root) way ∧ (∀ s ∈ way, IsName s) ∧
      folder ++ way ∈ disk.items.keys ∧ disk.readText path = .ok content := by
  unfold readTree at h
  dsimp only at h
  split at h
  · next folder found =>
    obtain ⟨⟨way, bytes⟩, hway, hread⟩ := mem_of_mapM_eq_ok h _ hmem
    obtain ⟨text, htext, hfile⟩ := bind_eq_ok.1 hread
    obtain ⟨rfl, rfl⟩ := Prod.mk.inj (Except.ok.inj hfile)
    have file := Disk.mem_filesBelow.1 (List.mem_filter.1 hway).1
    have key : folder ++ way ∈ disk.items.keys := List.mem_map_of_mem file
    have names : ∀ s ∈ way, IsName s := fun s hs =>
      (tree.names _ key).2 s (List.mem_append_right _ hs)
    obtain ⟨hplace, isFolder⟩ : disk.placeOf (tidy root) = .ok folder ∧
        disk.itemAt? folder = some .folder := Disk.find_eq_ok.1 found
    have ne := tree.way_ne_nil isFolder file
    refine ⟨folder, way, rfl, names, key, Disk.readText_eq_ok.2 ⟨_, _, ?_, tree.itemAt?_of_mem file,
      htext⟩⟩
    exact Disk.placeOf_pathBelow hplace isFolder ne names (tree.follow_way file)
  · obtain rfl := Except.ok.inj h
    exact absurd hmem List.not_mem_nil

/-- **A store that was read from a tree holds what is on disk.** -/
theorem readText_of_loadTree [WorkingFolder] (tree : disk.IsTree) (names : disk.HasPlainNames)
    (plain : backslash ∉ root.toList) (h : loadTree disk root suffixes = .ok store)
    {key content : String} (stored : store.files.get? key = some content) :
    (∃ way, key = Path.normalize (pathBelow (tidy root) way) ∧ (∀ s ∈ way, IsName s) ∧
      ∀ s ∈ way, backslash ∉ s) ∧ disk.readText key = .ok content := by
  obtain ⟨files, hfiles, rfl⟩ := loadTree_eq_ok.1 h
  obtain ⟨path, hpath, rfl⟩ := get?_ofList stored
  obtain ⟨folder, way, rfl, hway, hkey, read⟩ := mem_readTree tree hfiles hpath
  have plainWay : ∀ s ∈ way, backslash ∉ s := fun s hs =>
    names _ hkey s (List.mem_append_right _ hs)
  exact ⟨⟨way, rfl, hway, plainWay⟩,
    Disk.readText_normalize (plain_pathBelow (plain_tidy plain) plainWay) read⟩

end FileStore

end RouteTrim
