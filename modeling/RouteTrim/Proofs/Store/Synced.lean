import RouteTrim.Proofs.Store.Loading

/-!
# Store and disk stay in step

A store works on texts of its own, and its changes reach the disk when the dirty files are written.
Whatever is done in between, a text that is not dirty is the text on disk: a text that was set to
something else is dirty, one that was read again is as it was read, and writing goes through the
dirty files only. Files are written one after the other and may fail on the way; what was written
until then is on disk and still counts as dirty.

A dirty file never overwrites a clean one, since paths from the root in their normal spelling lead
to different places (`IsKey.eq_of_placeOf`).
-/

set_option autoImplicit false

namespace RouteTrim

open RouteTrim.Path
open RouteTrim.Text (backslash)

/-! ## Keys -/

/-- A path from the root, without backslashes. -/
def IsPlainPath (path : String) : Prop :=
  Anchor.ofPath path.toList = .root ∧ backslash ∉ path.toList

instance (path : String) : Decidable (IsPlainPath path) :=
  inferInstanceAs (Decidable (_ ∧ _))

/-- A path from the root in its normal spelling. -/
def IsKey (key : String) : Prop :=
  ∃ names : List Segment, (∀ s ∈ names, IsName s) ∧
    key = String.ofList (Location.mk .root names).toPath

theorem isKey_normalize {path : String} (plain : IsPlainPath path) :
    IsKey (Path.normalize path) := by
  obtain ⟨trail, htrail, hlocation⟩ := trail_ofPath path.toList
  refine ⟨trail.reverse, fun s hs => ?_, ?_⟩
  · rw [plain.1] at htrail
    exact htrail.isName (by decide) s (List.mem_reverse.1 hs)
  · rw [Path.normalize, normalizeChars_of_plain plain.2, hlocation, plain.1]

section

variable {disk : Disk} {key other : String} {place : List Segment}

/-- A key is spelled as the user's paths are. -/
theorem IsKey.tidy_eq (h : IsKey key) : tidy key = key := by
  obtain ⟨names, hnames, rfl⟩ := h
  rw [tidy, String.toList_ofList, tidyChars_toPath fun s hs => (hnames s hs).1]

theorem placeOf_key [WorkingFolder] {names : List Segment} (hnames : ∀ s ∈ names, IsName s)
    (h : disk.placeOf (String.ofList (Location.mk .root names).toPath) = .ok place) :
    place = names := by
  have isStep : ∀ s ∈ (Location.mk .root names).segments, IsStep s := fun s hs => (hnames s hs).1
  obtain ⟨-, followed⟩ := Disk.placeOf_eq_ok.1 h
  have followed := Disk.follow_steps followed
  rw [String.toList_ofList, anchor_toPath isStep, steps_toPath isStep] at followed
  exact Disk.follow_names hnames followed

/-- **Different keys lead to different places.** -/
theorem IsKey.eq_of_placeOf [WorkingFolder] (hkey : IsKey key) (hother : IsKey other)
    (first : disk.placeOf key = .ok place) (second : disk.placeOf other = .ok place) :
    key = other := by
  obtain ⟨names, hnames, rfl⟩ := hkey
  obtain ⟨others, hothers, rfl⟩ := hother
  rw [← placeOf_key hnames first, ← placeOf_key hothers second]

end

namespace FileStore

variable {store : FileStore} {disk : Disk}

/-! ## Writing some files -/

theorem readText_writeFiles [WorkingFolder] {paths : List String}
    (keys : ∀ path ∈ paths, IsKey path) {key text : String}
    (hkey : IsKey key) (other : key ∉ paths) (read : disk.readText key = .ok text) :
    (store.writeFiles paths disk).disk.readText key = .ok text := by
  induction paths generalizing disk with
  | nil => exact read
  | cons path paths ih =>
    obtain ⟨hpath, keys⟩ := List.forall_mem_cons.1 keys
    obtain ⟨hne, other⟩ := not_or.1 (mt List.mem_cons.2 other)
    unfold writeFiles
    rw [hpath.tidy_eq]
    cases hwrite : disk.writeText path ((store.files.get? path).getD "") with
    | error fault => exact read
    | ok after =>
      refine ih keys other (Disk.readText_of_writeText hwrite read fun same => hne ?_)
      obtain ⟨place, bytes, hplace, -⟩ := Disk.readText_eq_ok.1 read
      exact hkey.eq_of_placeOf hpath hplace (same ▸ hplace)

/-- **Files that are written without a fault are on disk.** -/
theorem writeFiles_readBack [WorkingFolder] {paths : List String}
    (keys : ∀ path ∈ paths, IsKey path) (nodup : paths.Nodup)
    (done : (store.writeFiles paths disk).fault = none) :
    ∀ path ∈ paths, ∀ content, store.files.get? path = some content →
      (store.writeFiles paths disk).disk.readText path = .ok (Disk.readBack content) := by
  induction paths generalizing disk with
  | nil => exact fun path hpath => absurd hpath List.not_mem_nil
  | cons path paths ih =>
    obtain ⟨hpath, keys⟩ := List.forall_mem_cons.1 keys
    obtain ⟨absent, nodup⟩ := List.nodup_cons.1 nodup
    unfold writeFiles at done ⊢
    rw [hpath.tidy_eq] at done ⊢
    cases hwrite : disk.writeText path ((store.files.get? path).getD "") with
    | error fault => rw [hwrite] at done; exact absurd done (by simp)
    | ok after =>
      rw [hwrite] at done
      refine List.forall_mem_cons.2 ⟨fun content stored => ?_, ih keys nodup done⟩
      rw [stored, Option.getD_some] at hwrite
      exact readText_writeFiles keys hpath absent (Disk.readText_writeText hwrite)

theorem mem_keys_insert {files : OrderedMap String String} {key other content : String}
    (h : other ∈ (files.insert key content).keys) : other = key ∨ other ∈ files.keys := by
  rw [OrderedMap.keys_insert] at h
  split at h
  · exact .inr h
  · rcases List.mem_append.1 h with h | h
    · exact .inr h
    · exact .inl (List.mem_singleton.1 h)

/-- Putting a text into a store adds at most one path, behind the others. -/
theorem keys_prefix_insert (files : OrderedMap String String) (key content : String) :
    files.keys <+: (files.insert key content).keys := by
  rw [OrderedMap.keys_insert]
  split
  · exact List.prefix_refl _
  · exact List.prefix_append ..

end FileStore

/-! ## A store at work -/

/-- A store and the disk that it works with. -/
structure StoreState where
  store : FileStore
  disk : Disk

/-- What can be done with a store and its disk. -/
inductive Operation where
  | set (path text : String)
  | get (path : String)
  | content (path : String)
  | paths (suffixes : List String)
  | addFile (path : String)
  | writeDirty
  /-- Writing the dirty files, broken off for whatever reason behind some of them. -/
  | breakOff (written : Nat)
  deriving DecidableEq

namespace Operation

/-- What an operation leaves behind. One that fails leaves the store as it was. -/
def step [WorkingFolder] (state : StoreState) : Operation → StoreState
  | set path text => { state with store := state.store.set path text }
  | get _ | content _ | paths _ => state
  | addFile path =>
    match state.store.addFile state.disk path with
    | .ok (_, store) => { state with store }
    | .error _ => state
  | writeDirty =>
    let (store, writing) := state.store.writeDirty state.disk
    ⟨store, writing.disk⟩
  | breakOff written =>
    ⟨state.store, (state.store.writeFiles (state.store.dirtyPaths.take written) state.disk).disk⟩

/-- What is left behind by some operations, one after the other. -/
def run [WorkingFolder] (operations : List Operation) (state : StoreState) : StoreState :=
  operations.foldl step state

/-- Whether the paths that an operation takes files by are plain. -/
def IsPlain : Operation → Prop
  | set path _ | addFile path => IsPlainPath path
  | _ => True

instance : DecidablePred IsPlain
  | set path _ | addFile path => inferInstanceAs (Decidable (IsPlainPath path))
  | get _ | content _ | paths _ | writeDirty | breakOff _ => .isTrue trivial

end Operation

namespace StoreState

/-- Where a store starts: empty, or with the files of a tree. -/
inductive Initial [WorkingFolder] : StoreState → Prop where
  | empty (disk : Disk) : Initial ⟨.empty, disk⟩
  | loaded {disk : Disk} {store : FileStore} {root : String} {suffixes : List String} :
      disk.IsTree → disk.HasPlainNames → IsPlainPath root →
      FileStore.loadTree disk root suffixes = .ok store → Initial ⟨store, disk⟩

/-- Every file is kept under its key, and a file that is not dirty is on disk. -/
structure Synced [WorkingFolder] (state : StoreState) : Prop where
  keys : ∀ key ∈ state.store.paths, IsKey key
  onDisk : ∀ key content, state.store.files.get? key = some content →
    key ∉ state.store.dirty → state.disk.readText key = .ok (Disk.readBack content)

end StoreState

section

variable {state : StoreState}

open FileStore

theorem Disk.readBack_of_readText [WorkingFolder] {disk : Disk} {path text : String}
    (h : disk.readText path = .ok text) : Disk.readBack text = text := by
  obtain ⟨-, bytes, -, -, decoded⟩ := Disk.readText_eq_ok.1 h
  unfold Disk.textOf at decoded
  split at decoded
  · obtain rfl := Except.ok.inj decoded
    rw [Disk.readBack, String.toList_ofList,
      Text.unifyNewlines_eq_self (Text.not_mem_unifyNewlines _)]
  · exact absurd decoded (by simp)

theorem isPlainPath_tidy {path : String} (h : IsPlainPath path) : IsPlainPath (tidy path) :=
  ⟨(anchor_tidy path).trans h.1, plain_tidy h.2⟩

theorem StoreState.Initial.synced [WorkingFolder] (h : state.Initial) : state.Synced := by
  cases h with
  | empty disk =>
    exact ⟨fun key hkey => absurd hkey List.not_mem_nil,
      fun key content h => absurd h (by simp [FileStore.empty])⟩
  | @loaded disk store root suffixes tree names plain loaded =>
    refine ⟨fun key hkey => ?_, fun key content stored _ => ?_⟩
    · obtain ⟨content, stored⟩ := Option.isSome_iff_exists.1
        ((OrderedMap.contains_iff_mem_keys ..).2 hkey)
      obtain ⟨⟨way, rfl, hway, plainWay⟩, -⟩ :=
        readText_of_loadTree tree names plain.2 loaded stored
      have root := isPlainPath_tidy plain
      exact isKey_normalize ⟨(anchor_pathBelow _ hway).trans root.1,
        plain_pathBelow root.2 plainWay⟩
    · obtain ⟨-, read⟩ := readText_of_loadTree tree names plain.2 loaded stored
      rw [Disk.readBack_of_readText read]
      exact read

theorem StoreState.Synced.write [WorkingFolder] (h : state.Synced) {written : List String}
    (some_dirty : ∀ path ∈ written, path ∈ state.store.dirtyPaths) :
    StoreState.Synced ⟨state.store, (state.store.writeFiles written state.disk).disk⟩ := by
  refine ⟨h.keys, fun key content stored clean => ?_⟩
  have keys : ∀ path ∈ written, IsKey path := fun path hpath =>
    h.keys path (mem_dirtyPaths.1 (some_dirty path hpath)).1
  refine readText_writeFiles keys (h.keys key (mem_paths_of_get? stored)) (fun hkey => clean ?_)
    (h.onDisk key content stored clean)
  exact (mem_dirtyPaths.1 (some_dirty key hkey)).2

/-- **When the dirty files were written without a fault, every file is on disk.** -/
theorem StoreState.Synced.writeDirty [WorkingFolder] (h : state.Synced)
    (done : (state.store.writeDirty state.disk).2.fault = none) {key content : String}
    (stored : state.store.files.get? key = some content) :
    (state.store.writeDirty state.disk).2.disk.readText key = .ok (Disk.readBack content) := by
  have hkey := mem_paths_of_get? stored
  by_cases dirty : key ∈ state.store.dirtyPaths
  · exact writeFiles_readBack (fun path hpath => h.keys path (mem_dirtyPaths.1 hpath).1)
      (nodup_dirtyPaths _) done key dirty content stored
  · have clean : key ∉ state.store.dirty := fun hdirty => dirty (mem_dirtyPaths.2 ⟨hkey, hdirty⟩)
    exact (h.write fun path hpath => hpath).onDisk key content stored clean

/-- **Every operation keeps a store in step with its disk.** -/
theorem StoreState.Synced.step [WorkingFolder] (h : state.Synced) {op : Operation}
    (plain : op.IsPlain) :
    (op.step state).Synced := by
  cases op with
  | set path text =>
    refine ⟨fun other hother => ?_, fun other stored hstored clean => ?_⟩
    · rcases mem_keys_insert hother with rfl | hother
      · exact isKey_normalize plain
      · exact h.keys other hother
    · have got := (OrderedMap.get?_insert ..).symm.trans hstored
      have clean : other ∉ if state.store.files.get? (Path.normalize path) = some text ∨
          Path.normalize path ∈ state.store.dirty then state.store.dirty
        else state.store.dirty ++ [Path.normalize path] := clean
      -- A file that is clean behind this was clean before, and has its old text.
      split at clean
      · next same =>
        split at got
        · next hkey =>
          subst hkey
          obtain rfl := Option.some.inj got
          exact h.onDisk _ _ (same.resolve_right clean) clean
        · exact h.onDisk other stored got clean
      · obtain ⟨clean, hkey⟩ := not_or.1 (mt List.mem_append.2 clean)
        rw [if_neg (mt List.mem_singleton.2 hkey)] at got
        exact h.onDisk other stored got clean
  | get => exact h
  | content => exact h
  | paths => exact h
  | addFile path =>
    unfold Operation.step FileStore.addFile
    dsimp only
    cases hread : state.disk.readText (tidy path) with
    | error failure => exact h
    | ok text =>
      have plain := isPlainPath_tidy plain
      refine ⟨fun other hother => ?_, fun other stored hstored clean => ?_⟩
      · rcases mem_keys_insert hother with rfl | hother
        · exact isKey_normalize plain
        · exact h.keys other hother
      · have got := (OrderedMap.get?_insert ..).symm.trans hstored
        split at got
        · next hkey =>
          subst hkey
          obtain rfl := Option.some.inj got
          rw [Disk.readBack_of_readText hread]
          exact Disk.readText_normalize plain.2 hread
        · exact h.onDisk other stored got clean
  | writeDirty =>
    unfold Operation.step FileStore.writeDirty
    dsimp only
    cases hfault : (state.store.writeFiles state.store.dirtyPaths state.disk).fault with
    | none => exact ⟨h.keys, fun key content stored _ => h.writeDirty hfault stored⟩
    | some fault => exact h.write fun path hpath => hpath
  | breakOff written => exact h.write fun path hpath => List.mem_of_mem_take hpath

/-- A store stays in step with its disk in any number of operations. -/
theorem StoreState.Synced.run [WorkingFolder] {operations : List Operation} (h : state.Synced)
    (plain : ∀ op ∈ operations, op.IsPlain) : (Operation.run operations state).Synced := by
  induction operations generalizing state with
  | nil => exact h
  | cons op operations ih =>
    obtain ⟨hop, plain⟩ := List.forall_mem_cons.1 plain
    exact ih (h.step hop) plain

/-- No operation moves or drops a file; a new one comes last. -/
theorem paths_prefix_step [WorkingFolder]
    (op : Operation) : state.store.paths <+: (op.step state).store.paths := by
  cases op with
  | set path text => exact keys_prefix_insert ..
  | get => exact List.prefix_refl _
  | content => exact List.prefix_refl _
  | paths => exact List.prefix_refl _
  | addFile path =>
    unfold Operation.step FileStore.addFile
    dsimp only
    cases state.disk.readText (tidy path) with
    | error failure => exact List.prefix_refl _
    | ok text => exact keys_prefix_insert ..
  | writeDirty =>
    unfold Operation.step FileStore.writeDirty
    dsimp only
    split <;> exact List.prefix_refl _
  | breakOff => exact List.prefix_refl _

end

/-- **No update is lost.** In every state that some operations lead to, each file that is not dirty
is on disk with the text that the store has, up to line ends, and once the dirty files were written
without a fault every file is. The dirty files are files of the store, each once and in the order in
which they came in, and no operation moves a file. -/
theorem nothing_is_lost [WorkingFolder] {start : StoreState} (initial : start.Initial)
    {operations : List Operation}
    (plain : ∀ op ∈ operations, op.IsPlain) {state : StoreState}
    (reached : Operation.run operations start = state) :
    (∀ path content, state.store.files.get? path = some content → path ∉ state.store.dirtyPaths →
        state.disk.readText path = .ok (Disk.readBack content)) ∧
      ((state.store.writeDirty state.disk).2.fault = none → ∀ path content,
        state.store.files.get? path = some content →
          (state.store.writeDirty state.disk).2.disk.readText path = .ok (Disk.readBack content)) ∧
      state.store.dirtyPaths.Sublist state.store.paths ∧ state.store.dirtyPaths.Nodup ∧
      ∀ op : Operation, state.store.paths <+: (op.step state).store.paths := by
  have synced : state.Synced := reached ▸ initial.synced.run plain
  refine ⟨fun path content stored clean => ?_, fun done path content => synced.writeDirty done,
    state.store.dirtyPaths_sublist, state.store.nodup_dirtyPaths, fun op => paths_prefix_step op⟩
  have stored' := FileStore.mem_paths_of_get? stored
  exact synced.onDisk path content stored fun dirty =>
    clean (FileStore.mem_dirtyPaths.2 ⟨stored', dirty⟩)

/-- A disk with two files, one of them with another system's line ends. -/
def notesDisk : Disk where
  items := .ofList [([['n']], .folder), ([['n'], ['a']], .file "one\r\ntwo".toUTF8),
    ([['n'], ['b']], .file "three".toUTF8)]

/-- Work on these files: one is changed and read again, a new one has no folder to be written to. -/
def notesWork : List Operation :=
  [.set "/n/./b" "four", .addFile "/n/a", .set "/n/m/../b" "five\r", .breakOff 1,
    .set "/n/new/c" "six", .writeDirty, .get "/n/b"]

theorem nothing_is_lost_notes : ∃ store, FileStore.loadTree notesDisk "/n" [""] = .ok store ∧
    let state := Operation.run notesWork ⟨store, notesDisk⟩
    state.store.paths = ["/n/a", "/n/b", "/n/new/c"] ∧
      state.store.dirtyPaths = ["/n/b", "/n/new/c"] ∧
      (∀ path content, state.store.files.get? path = some content →
        path ∉ state.store.dirtyPaths →
          state.disk.readText path = .ok (Disk.readBack content)) := by
  have found : notesDisk.find (tidy "/n") = .ok ([['n']], .folder) := rfl
  have loaded : FileStore.loadTree notesDisk "/n" [""]
      = .ok (.ofList [("/n/a", "one\ntwo"), ("/n/b", "three")]) := by
    rw [FileStore.loadTree_of_sorted found rfl (by decide)]
    rfl
  have tree : notesDisk.IsTree := ⟨by decide, by decide⟩
  have names : notesDisk.HasPlainNames := by unfold Disk.HasPlainNames; decide
  refine ⟨_, loaded, by decide +kernel, by decide +kernel, ?_⟩
  exact (nothing_is_lost (.loaded tree names (by decide) loaded) (by decide) rfl).1

end RouteTrim
