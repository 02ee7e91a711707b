import Mathlib.Data.Char
import Mathlib.Data.List.Lex
import RouteTrim.Proofs.OrderedMap
import RouteTrim.Proofs.Path.Parts
import RouteTrim.Proofs.Store.Loading
import RouteTrim.Route.Discovery

/-!
# In which order a tree is read

A disk has its items in some order, and a store has the files of a tree in one that does not depend
on it. They come in the order of the ways below the root, which are compared name by name
(`sorted_filesBelow`), so two disks with the same items list the same files (`filesBelow_of_perm`).

A file is kept under the normal spelling of its path. Whatever the root is spelled like, that has
the segments of the root in front and then the names of the way (`segments_keyBelow`). So the keys
are in the order of their segments, each file has a key of its own, and the search for pages finds
them in that order (`loadTree_listing`).
-/

set_option autoImplicit false

namespace RouteTrim.Path

open RouteTrim.Text

/-- Above which anchor a step is taken matters only as far as there is a root. -/
theorem step_congr {anchor other : Anchor} (h : anchor = .relative ↔ other = .relative) :
    Location.step anchor = Location.step other := by
  funext trail s
  unfold Location.step
  simp only [h]

theorem segments_onward (path : List Char) {way : List Segment} (ne : way ≠ [])
    (names : ∀ s ∈ way, IsName s) : (Location.ofPath (path ++ '/' :: joinWith ['/'] way)).segments
      = (Location.ofPath path).segments ++ way := by
  have walked (anchor : Anchor) : (split '/' (path ++ '/' :: joinWith ['/'] way)).foldl
      (Location.step anchor) [] = way.reverse
          ++ (split '/' path).foldl (Location.step anchor) [] := by
    rw [split_append, split_joinWith ne fun s hs => (names s hs).1.2.2, List.foldl_append,
      foldl_names names]
  have start : (split '/' path).foldl
      (Location.step (Anchor.ofPath (path ++ '/' :: joinWith ['/'] way))) []
      = (split '/' path).foldl (Location.step (Anchor.ofPath path)) [] := by
    cases path with
    | nil => rfl
    | cons c path =>
      have rooted := (startsAtSlash_iff (c :: path ++ '/' :: joinWith ['/'] way)).symm.trans
        (startsAtSlash_iff (c :: path))
      rw [step_congr (not_iff_not.1 rooted)]
  simp only [Location.ofPath, walked, start, List.reverse_append, List.reverse_reverse]

theorem segments_pathBelow (root : String) {way : List Segment} (ne : way ≠ [])
    (names : ∀ s ∈ way, IsName s) (plain : ∀ s ∈ way, backslash ∉ s) :
    (locationOf (FileStore.pathBelow (tidy root) way)).segments
      = (locationOf (tidy root)).segments ++ way := by
  obtain ⟨l, isStep, spelled⟩ : ∃ l : Location, (∀ s ∈ l.segments, IsStep s) ∧
      (tidy root).toList = l.toPath :=
    ⟨⟨_, steps (split '/' root.toList)⟩, fun s hs => isStep_of_mem_steps hs, String.toList_ofList⟩
  have head := head_joinWith fun s hs => (names s hs).1
  have plainText := plain_joinWith plain
  have onward (front : List Char) (text : (FileStore.pathBelow (tidy root) way).toList
      = front ++ '/' :: joinWith ['/'] way) :
      (locationOf (FileStore.pathBelow (tidy root) way)).segments = (Location.ofPath
        (front.map fun c => if c = backslash then '/' else c)).segments ++ way := by
    rw [locationOf, text, List.map_append, List.map_cons, map_slash_of_plain plainText]
    exact segments_onward _ ne names
  have below : (FileStore.pathBelow (tidy root) way).toList
    = if l.toPath = here then joinWith ['/'] way
      else joinChars l.toPath (joinWith ['/'] way) := by
    rw [FileStore.pathBelow, String.toList_ofList, spelled]
  obtain ⟨anchor, segments⟩ := l
  -- A way from the place where relative paths start stands alone, and the slashes of a root are
  -- there.
  cases segments with
  | nil =>
    cases anchor with
    | relative =>
      have bare := below.trans (if_pos rfl)
      rw [locationOf, locationOf, bare, spelled, map_slash_of_plain plainText]
      simp only [Location.ofPath, split_joinWith ne fun s hs => (names s hs).1.2.2,
        foldl_names names, List.append_nil, List.reverse_reverse]
      rfl
    | root =>
      rw [onward [] (below.trans ((if_neg (by decide)).trans (if_neg head))), locationOf, spelled]
      rfl
    | doubleRoot =>
      rw [onward ['/'] (below.trans ((if_neg (by decide)).trans (if_neg head))), locationOf, spelled]
      rfl
  | cons s segments =>
    have away : (Location.mk anchor (s :: segments)).toPath ≠ here := by
      intro same
      have walked := steps_toPath isStep
      rw [same] at walked
      exact absurd walked (by simp [steps, here, split])
    have closed := getLast?_toPath isStep (List.cons_ne_nil s segments)
    rw [if_neg away, joinChars, if_neg head, if_neg (by simp [closed, Disk.toPath_ne_nil])] at below
    rw [onward _ below, locationOf, spelled]

end RouteTrim.Path

namespace RouteTrim.Disk

open RouteTrim.Path
open RouteTrim.Text (backslash split)

/-! ## Files below a root -/

/-- A way of names leads from a root to a file. -/
def IsBelow [WorkingFolder] (disk : Disk) (root : String) (way : List Segment)
    (bytes : ByteArray) : Prop :=
  ∃ folder, disk.placeOf (tidy root) = .ok folder ∧ way ≠ [] ∧
    disk.itemAt? (folder ++ way) = some (.file bytes)

section

variable {disk : Disk} {root : String} {place folder way : List Segment} {bytes : ByteArray}

theorem mem_of_itemAt? {item : DiskItem} (ne : place ≠ []) (h : disk.itemAt? place = some item) :
    (place, item) ∈ disk.items.entries := by
  rw [itemAt?, if_neg (by simpa using ne)] at h
  exact (OrderedMap.get?_eq_some_iff ..).1 h

theorem isFolder_of_way (tree : disk.IsTree) (ne : way ≠ [])
    (h : disk.itemAt? (folder ++ way) = some (.file bytes)) :
    disk.itemAt? folder = some .folder := by
  have key := List.mem_map_of_mem (f := Prod.fst) (mem_of_itemAt? (by simp [ne]) h)
  have above := tree.folders _ key folder.length
    (by simpa using Nat.pos_of_ne_zero (mt List.length_eq_zero_iff.1 ne))
  rwa [List.take_left' rfl] at above

theorem IsBelow.isName [WorkingFolder] (tree : disk.IsTree) (h : disk.IsBelow root way bytes) :
    ∀ s ∈ way, IsName s := by
  obtain ⟨folder, -, ne, found⟩ := h
  have key := List.mem_map_of_mem (f := Prod.fst) (mem_of_itemAt? (by simp [ne]) found)
  exact fun s hs => (tree.names _ key).2 s (List.mem_append_right _ hs)

/-- No name of a folder or file on the way from a root to a file has a backslash in it. -/
def HasPlainWays [WorkingFolder] (disk : Disk) (root : String) : Prop :=
  ∀ way bytes, disk.IsBelow root way bytes → ∀ s ∈ way, backslash ∉ s

theorem HasPlainNames.ways [WorkingFolder] (names : disk.HasPlainNames)
    (root : String) : disk.HasPlainWays root := by
  rintro way bytes ⟨folder, -, ne, found⟩ s hs
  have key := List.mem_map_of_mem (f := Prod.fst) (mem_of_itemAt? (by simp [ne]) found)
  exact names _ key s (List.mem_append_right _ hs)

/-! ## The order of the files -/

theorem sorted_filesBelow (disk : Disk) (folder : List Segment) :
    (disk.filesBelow folder).Pairwise fun a b => a.1 < b.1 := by
  -- The sort leaves equal ways side by side, so that there are none is said of the items.
  have apart : (disk.filesBelow folder).Pairwise fun a b => a.1 ≠ b.1 := by
    refine (List.mergeSort_perm _ _).symm.pairwise ?_ fun h => h.symm
    refine (List.pairwise_map.1 disk.items.nodup).filterMap _ ?_
    rintro ⟨place, item⟩ ⟨other, otherItem⟩ ne first hfirst second hsecond same
    dsimp only at hfirst hsecond
    split at hfirst
    · next hway =>
      split at hsecond
      · next hother =>
        obtain rfl := Option.some.inj hfirst
        obtain rfl := Option.some.inj hsecond
        rw [below?_eq_some.1 hway, below?_eq_some.1 hother] at ne
        exact ne (congrArg (folder ++ ·) same)
      · exact absurd hsecond (by simp)
    · exact absurd hfirst (by simp)
  have sorted : (disk.filesBelow folder).Pairwise fun a b => ¬ b.1 < a.1 := by
    refine (List.pairwise_mergeSort (fun a b c hab hbc => ?_) (fun a b => ?_) _).imp
      fun h => by simpa using h
    · simp only [Bool.not_eq_true', decide_eq_false_iff_not, not_lt] at *
      exact hab.trans hbc
    · simp only [Bool.or_eq_true, Bool.not_eq_true', decide_eq_false_iff_not, not_lt]
      exact le_total a.1 b.1
  exact apart.imp₂ (fun a b ne le => lt_of_le_of_ne (not_lt.1 le) ne) sorted

theorem filesBelow_of_perm {other : Disk} (same : other.items.entries.Perm disk.items.entries)
    (folder : List Segment) : other.filesBelow folder = disk.filesBelow folder := by
  have nodup (disk : Disk) : (disk.filesBelow folder).Nodup :=
    (sorted_filesBelow disk folder).imp fun before => by
      rintro rfl
      exact lt_irrefl _ before
  refine List.Perm.eq_of_pairwise (fun a b _ _ before behind => absurd behind (lt_asymm before))
    (sorted_filesBelow other folder) (sorted_filesBelow disk folder) ?_
  rw [List.perm_ext_iff_of_nodup (nodup other) (nodup disk)]
  exact fun ⟨way, bytes⟩ => mem_filesBelow.trans (same.mem_iff.trans mem_filesBelow.symm)

/-- What a path leads to does not depend on that order either. -/
theorem find_of_perm [WorkingFolder] {other : Disk}
    (same : other.items.entries.Perm disk.items.entries) (path : String) :
    other.find path = disk.find path := by
  have items (place : List Segment) : other.itemAt? place = disk.itemAt? place := by
    unfold itemAt?
    split
    · rfl
    · refine Option.ext fun item => ?_
      rw [OrderedMap.get?_eq_some_iff, OrderedMap.get?_eq_some_iff, same.mem_iff]
  have followed (place segments : List Segment) : other.follow place segments
      = disk.follow place segments := by
    fun_induction disk.follow place segments <;> simp_all [follow]
  have placed : other.placeOf path = disk.placeOf path := by
    unfold placeOf
    rw [followed]
  unfold find
  rw [placed]
  simp only [items]

end

end RouteTrim.Disk

namespace RouteTrim.FileStore

open RouteTrim.Path

/-- A name ends in one of the given ways, and the folders in front of it are none of those that are
passed over. -/
def Wants (suffixes : List String) (way : List Segment) : Prop :=
  (∃ suffix ∈ suffixes, suffix.toList <:+ way.getLastD []) ∧
    ∀ folder ∈ way.dropLast, String.ofList folder ∉ skippedFolders

theorem isWanted_iff {suffixes : List String} {way : List Segment} :
    isWanted suffixes way = true ↔ Wants suffixes way := by
  simp only [isWanted, Wants, Bool.and_eq_true, List.any_eq_true, Text.endsWith_iff, Bool.not_eq_true',
    ← Bool.not_eq_true, not_exists, not_and, beq_iff_eq]
  refine and_congr_right fun _ => forall₂_congr fun folder _ => ?_
  constructor
  · exact fun apart listed => apart _ listed (String.toList_ofList)
  · rintro unlisted skipped listed rfl
    rw [String.ofList_toList] at unlisted
    exact unlisted listed

/-- **A tree is read into the same store whatever the order in which its disk lists it.** -/
theorem loadTree_of_perm [WorkingFolder] {disk other : Disk}
    (same : other.items.entries.Perm disk.items.entries) (root : String) (suffixes : List String) :
    loadTree other root suffixes = loadTree disk root suffixes := by
  unfold loadTree readTree
  simp only [Disk.find_of_perm same, Disk.filesBelow_of_perm same]

theorem files_ofList (files : List (String × String)) : (ofList files).files
    = .ofList (files.map fun file => (Path.normalize file.1, file.2)) := by
  rw [OrderedMap.ofList, List.foldl_map]
  exact (List.foldl_hom FileStore.files fun _ _ => rfl).symm

section

variable {disk : Disk} {root : String} {suffixes : List String}

theorem readTree_eq [WorkingFolder] (tree : disk.IsTree) (root : String) (suffixes : List String) :
    ∃ files : List (List Segment × ByteArray), files.Pairwise (fun a b => a.1 < b.1) ∧
      (∀ way bytes, (way, bytes) ∈ files ↔ disk.IsBelow root way bytes ∧ Wants suffixes way) ∧
      readTree disk root suffixes = files.mapM fun file => do
        return (pathBelow (tidy root) file.1, ← Disk.textOf file.2) := by
  unfold readTree
  dsimp only
  split
  · next folder found =>
    obtain ⟨placed, isFolder⟩ := Disk.find_eq_ok.1 found
    refine ⟨_, (Disk.sorted_filesBelow disk folder).filter _, fun way bytes => ?_, rfl⟩
    rw [List.mem_filter, Disk.mem_filesBelow, isWanted_iff]
    refine and_congr_left fun _ => ⟨fun listed => ?_, ?_⟩
    · exact ⟨folder, placed, tree.way_ne_nil isFolder listed, tree.itemAt?_of_mem listed⟩
    · rintro ⟨other, otherPlaced, ne, file⟩
      obtain rfl := Except.ok.inj (otherPlaced.symm.trans placed)
      exact Disk.mem_of_itemAt? (by simp [ne]) file
  · next nothing =>
    refine ⟨[], .nil, fun way bytes => iff_of_false List.not_mem_nil ?_, rfl⟩
    rintro ⟨⟨folder, placed, ne, file⟩, -⟩
    exact nothing folder (Disk.find_eq_ok.2 ⟨placed, Disk.isFolder_of_way tree ne file⟩)

/-- The key that the file of a way below a root is kept under. -/
def keyBelow (root : String) (way : List Segment) : String :=
  Path.normalize (pathBelow (tidy root) way)

theorem segments_keyBelow [WorkingFolder] (tree : disk.IsTree) (plain : disk.HasPlainWays root)
    {way : List Segment}
    {bytes : ByteArray} (h : disk.IsBelow root way bytes) :
    (locationOf (keyBelow root way)).segments = (locationOf (tidy root)).segments ++ way := by
  have same : locationOf (keyBelow root way) = locationOf (pathBelow (tidy root) way) :=
    normalize_eq_iff.1 (normalize_normalize _)
  have names := h.isName tree
  have unslashed := plain _ _ h
  obtain ⟨-, -, ne, -⟩ := h
  rw [same, segments_pathBelow root ne names unslashed]

/-- The segments of one key come before those of another one. -/
def Precedes (key other : String) : Prop :=
  (locationOf key).segments < (locationOf other).segments

/-- Files in the order of their ways are kept in that order, each under a key of its own. -/
theorem entries_ofWays [WorkingFolder] (tree : disk.IsTree) (plain : disk.HasPlainWays root)
    {files : List (List Segment × ByteArray)} (sorted : files.Pairwise fun a b => a.1 < b.1)
    (below : ∀ file ∈ files, disk.IsBelow root file.1 file.2) (content : ByteArray → String) :
    (ofList (files.map fun file => (pathBelow (tidy root) file.1, content file.2))).files.entries
        = files.map (fun file => (keyBelow root file.1, content file.2)) ∧
      (files.map fun file => keyBelow root file.1).Pairwise Precedes := by
  have ordered : (files.map fun file => keyBelow root file.1).Pairwise Precedes := by
    refine List.pairwise_map.2 (sorted.imp_of_mem fun {a b} ha hb before => ?_)
    rw [Precedes, segments_keyBelow tree plain (below a ha),
      segments_keyBelow tree plain (below b hb)]
    exact List.append_left_lt before
  have keys : (files.map fun file => keyBelow root file.1).Nodup := ordered.imp fun before => by
    rintro rfl
    exact lt_irrefl _ before
  refine ⟨?_, ordered⟩
  rw [files_ofList, List.map_map]
  refine OrderedMap.entries_ofList ?_
  rw [List.map_map]
  exact keys

/-- **A tree is read whole and in order.** The store has one clean entry for each file below the
root that is wanted, with its text, and none for anything else. Its keys are in the order of their
segments, and so are the pages that are found in it. The order in which the disk lists its items
does not matter. -/
theorem loadTree_listing [WorkingFolder] (tree : disk.IsTree) (root : String)
    (plain : disk.HasPlainWays root)
    (suffixes : List String) (texts : ∀ way bytes, disk.IsBelow root way bytes → Wants suffixes way →
      ∃ text, Disk.textOf bytes = .ok text) :
    ∃ (store : FileStore) (files : List (List Segment × ByteArray)),
      loadTree disk root suffixes = .ok store ∧ store.dirtyPaths = [] ∧
      (∀ way bytes, (way, bytes) ∈ files ↔ disk.IsBelow root way bytes ∧ Wants suffixes way) ∧
      files.Pairwise (fun a b => a.1 < b.1) ∧
      List.Forall₂ (fun file entry => entry.1 = keyBelow root file.1 ∧
        (locationOf entry.1).segments = (locationOf (tidy root)).segments ++ file.1 ∧
        Disk.textOf file.2 = .ok entry.2) files store.files.entries ∧
      store.paths.Pairwise Precedes ∧
      (∀ config, (Route.pageSources store config).Pairwise Precedes) ∧
      ∀ other : Disk, other.items.entries.Perm disk.items.entries →
        loadTree other root suffixes = .ok store := by
  obtain ⟨files, sorted, members, read⟩ := readTree_eq tree root suffixes
  have below (file : List Segment × ByteArray) (h : file ∈ files) := ((members file.1 file.2).1 h).1
  let content (bytes : ByteArray) : String := (Disk.textOf bytes).toOption.getD ""
  have decoded : ∀ file ∈ files, Disk.textOf file.2 = .ok (content file.2) := by
    intro file h
    obtain ⟨below, wanted⟩ := (members file.1 file.2).1 h
    obtain ⟨text, htext⟩ := texts _ _ below wanted
    simp only [content, htext]
    rfl
  obtain ⟨entries, ordered⟩ := entries_ofWays tree plain sorted below content
  have loaded : loadTree disk root suffixes = .ok
      (ofList (files.map fun file => (pathBelow (tidy root) file.1, content file.2))) := by
    refine loadTree_eq_ok.2 ⟨_, read.trans (mapM_of_forall_ok fun file h => ?_), rfl⟩
    rw [decoded file h]
    rfl
  generalize ofList _ = store at entries loaded
  have paths : store.paths = files.map fun file => keyBelow root file.1 := by
    rw [paths, OrderedMap.keys, entries, List.map_map]
    rfl
  have inOrder : store.paths.Pairwise Precedes := paths ▸ ordered
  refine ⟨store, files, loaded, ?_, members, sorted, ?_, inOrder, fun config => ?_,
    fun other same => (loadTree_of_perm same root suffixes).trans loaded⟩
  · rw [dirtyPaths, dirty_loadTree loaded]
    simp
  · rw [entries, List.forall₂_map_right_iff, List.forall₂_same]
    exact fun file h => ⟨rfl, segments_keyBelow tree plain (below file h), decoded file h⟩
  · exact inOrder.sublist (List.filter_sublist.trans List.filter_sublist)

end

/-- A project with a folder that is passed over. The folder `a` comes before the file `a-b.ts`, but
the text of the path to the file in it comes behind the others. -/
def pagesItems : List (List Segment × DiskItem) :=
  [(["p".toList], .folder), (["p".toList, "a".toList], .folder),
    (["p".toList, "a".toList, "b.ts".toList], .file "one".toUTF8),
    (["p".toList, "a-b.ts".toList], .file "two".toUTF8),
    (["p".toList, "a.ts".toList], .file "three".toUTF8),
    (["p".toList, "node_modules".toList], .folder),
    (["p".toList, "node_modules".toList, "c.ts".toList], .file "four".toUTF8)]

/-- The files are read in the same order from a disk that lists them from the last to the first. -/
theorem loadTree_listing_pages : ∃ store,
    loadTree ⟨.ofList pagesItems⟩ "/p" [".ts"] = .ok store ∧
    store.paths = ["/p/a/b.ts", "/p/a-b.ts", "/p/a.ts"] ∧ store.dirtyPaths = [] ∧
    store.paths.Pairwise Precedes ∧
    loadTree ⟨.ofList pagesItems.reverse⟩ "/p" [".ts"] = .ok store := by
  have found : Disk.find ⟨.ofList pagesItems⟩ (tidy "/p") = .ok (["p".toList], .folder) := by
    rfl
  have loaded : loadTree ⟨.ofList pagesItems⟩ "/p" [".ts"]
      = .ok (.ofList [("/p/a/b.ts", "one"), ("/p/a-b.ts", "two"), ("/p/a.ts", "three")]) := by
    rw [loadTree_of_sorted found rfl (by decide)]
    rfl
  have tree : Disk.IsTree ⟨.ofList pagesItems⟩ := ⟨by decide, by decide⟩
  have names : Disk.HasPlainNames ⟨.ofList pagesItems⟩ := by unfold Disk.HasPlainNames; decide
  have distinct : (pagesItems.map Prod.fst).Nodup := by decide
  have entries := OrderedMap.entries_ofList distinct
  have reversed : (OrderedMap.ofList pagesItems.reverse).entries = pagesItems.reverse :=
    OrderedMap.entries_ofList (((List.reverse_perm _).map Prod.fst).nodup_iff.2 distinct)
  have texts : ∀ way bytes, Disk.IsBelow ⟨.ofList pagesItems⟩ "/p" way bytes →
      Wants [".ts"] way → ∃ text, Disk.textOf bytes = .ok text := by
    rintro way bytes ⟨folder, -, ne, file⟩ -
    have listed := Disk.mem_of_itemAt? (by simp [ne]) file
    rw [entries] at listed
    have written : ∀ item ∈ pagesItems, ∀ bytes, item.2 = .file bytes → ∃ text : String,
        bytes = text.toUTF8 := by
      simp [pagesItems]
    obtain ⟨text, rfl⟩ := written _ listed bytes rfl
    exact ⟨_, Disk.textOf_toUTF8 text⟩
  obtain ⟨store, files, read, clean, -, -, -, inOrder, -, anyOrder⟩ :=
    loadTree_listing tree "/p" (names.ways "/p") [".ts"] texts
  obtain rfl := Except.ok.inj (loaded.symm.trans read)
  refine ⟨_, loaded, by decide +kernel, clean, inOrder, anyOrder _ ?_⟩
  rw [reversed, entries]
  exact List.reverse_perm _

end RouteTrim.FileStore
