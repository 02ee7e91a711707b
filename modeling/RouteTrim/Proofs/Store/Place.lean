import RouteTrim.Proofs.Path.Normal
import RouteTrim.Store.Tree

/-!
# Where paths lead

A disk follows a path segment by segment and takes `..` as it comes, while the store spells paths
without looking at the disk. The two agree: without links, a path that leads somewhere leads to the
same place in its normal and in its tidy spelling. A path from the root leads to its own segments,
so different normal paths lead to different places.

`follow` looks at a folder before each segment, those that lead nowhere included. Leaving segments
out therefore only ever makes a path lead somewhere, and that is the direction in which the lemmas
go.
-/

set_option autoImplicit false

namespace RouteTrim

open RouteTrim.Path
open RouteTrim.Text

def DiskItem.bytes? : DiskItem → Option ByteArray
  | .folder => none
  | .file bytes => some bytes

theorem DiskItem.bytes?_inj {item other : DiskItem} :
    item.bytes? = other.bytes? ↔ item = other := by
  cases item <;> cases other <;> simp [bytes?]

-- The instance for bytes is named, since libraries bring further ones.
instance : DecidableEq DiskItem := fun item other =>
  have := @Option.instDecidableEq _ ByteArray.instDecidableEq item.bytes? other.bytes?
  decidable_of_iff _ DiskItem.bytes?_inj

namespace Disk

variable {disk : Disk} {start place : List Segment}

/-! ## Following segments -/

theorem follow_cons_eq_ok {s : Segment} {segments : List Segment} :
    disk.follow start (s :: segments) = .ok place ↔ disk.itemAt? start = some .folder ∧
      disk.follow (if s = [] ∨ s = here then start else if s = up then start.dropLast
        else start ++ [s]) segments = .ok place := by
  rw [follow]
  rcases disk.itemAt? start with _ | _ | bytes
  · simp
  · by_cases hs : s = [] ∨ s = here
    · have skipped : (s.isEmpty || s == here) = true := by simpa using hs
      simp [skipped, hs]
    · have kept : (s.isEmpty || s == here) = false := by simpa using hs
      simp only [kept, hs, Bool.false_eq_true, if_false, beq_iff_eq, true_and]
      split <;> rfl
  · simp

theorem follow_append_eq_ok (front back : List Segment) :
    disk.follow start (front ++ back) = .ok place ↔
      ∃ between, disk.follow start front = .ok between ∧ disk.follow between back = .ok place := by
  induction front generalizing start with
  | nil => simp [follow]
  | cons s front ih =>
    simp only [List.cons_append, follow_cons_eq_ok, ih]
    exact ⟨fun ⟨folder, between, hfront, hback⟩ => ⟨between, ⟨folder, hfront⟩, hback⟩,
      fun ⟨between, ⟨folder, hfront⟩, hback⟩ => ⟨folder, between, hfront, hback⟩⟩

theorem follow_name_eq_ok {s : Segment} (h : IsName s) :
    disk.follow start [s] = .ok place ↔
      disk.itemAt? start = some .folder ∧ place = start ++ [s] := by
  have hs : ¬(s = [] ∨ s = here) := not_or.2 ⟨h.1.1, h.1.2.1⟩
  rw [follow_cons_eq_ok, if_neg hs, if_neg h.2, follow]
  exact and_congr_right fun _ => ⟨fun h => (Except.ok.inj h).symm, fun h => h ▸ rfl⟩

theorem follow_names {names : List Segment} (h : ∀ s ∈ names, IsName s)
    (followed : disk.follow start names = .ok place) : place = start ++ names := by
  induction names generalizing start with
  | nil =>
    rw [List.append_nil]
    exact (Except.ok.inj followed).symm
  | cons s names ih =>
    obtain ⟨hs, hnames⟩ := List.forall_mem_cons.1 h
    obtain ⟨between, first, rest⟩ := (follow_append_eq_ok [s] names).1 followed
    obtain ⟨-, rfl⟩ := (follow_name_eq_ok hs).1 first
    simpa using ih hnames rest

/-- Segments that lead nowhere may be left out. -/
theorem follow_steps {segments : List Segment} (h : disk.follow start segments = .ok place) :
    disk.follow start (steps segments) = .ok place := by
  induction segments generalizing start with
  | nil => exact h
  | cons s segments ih =>
    obtain ⟨folder, rest⟩ := follow_cons_eq_ok.1 h
    by_cases hs : s = [] ∨ s = here
    · rw [if_pos hs] at rest
      have skipped : steps (s :: segments) = steps segments := by
        rcases hs with rfl | rfl <;> rfl
      rw [skipped]
      exact ih rest
    · obtain ⟨hempty, hhere⟩ := not_or.1 hs
      have kept : steps (s :: segments) = s :: steps segments := by
        simp [steps, hempty, hhere]
      rw [kept]
      exact follow_cons_eq_ok.2 ⟨folder, ih rest⟩

/-- **Walking finds the place that a disk finds**: a level up undoes the name in front of it, which
was a folder. Above the root there is nothing. -/
theorem follow_walk (anchor : Anchor) (rooted : anchor ≠ .relative → start = [])
    {segments trail : List Segment} {between : List Segment} (isStep : ∀ s ∈ trail, IsStep s)
    (behind : disk.follow start trail.reverse = .ok between)
    (ahead : disk.follow between segments = .ok place) (slashless : ∀ s ∈ segments, '/' ∉ s) :
    disk.follow start (segments.foldl (Location.step anchor) trail).reverse = .ok place := by
  induction segments generalizing trail between with
  | nil =>
    obtain rfl : between = place := by simpa [follow] using ahead
    exact behind
  | cons s segments ih =>
    obtain ⟨hslash, onward⟩ := List.forall_mem_cons.1 slashless
    obtain ⟨folder, rest⟩ := follow_cons_eq_ok.1 ahead
    rw [List.foldl_cons]
    rcases step_cases anchor trail s with
      ⟨hs, hstep⟩ | ⟨rfl, hanchor, rfl, hstep⟩ | ⟨last, before, rfl, rfl, hlast, hstep⟩ |
      ⟨hempty, hhere, hstep, -⟩ <;> rw [hstep]
    · rw [if_pos hs] at rest
      exact ih isStep behind rest onward
    · obtain rfl := rooted hanchor
      obtain rfl : [] = between := Except.ok.inj behind
      exact ih isStep behind rest onward
    · obtain ⟨hstep, isStep⟩ := List.forall_mem_cons.1 isStep
      rw [List.reverse_cons] at behind
      obtain ⟨previous, hprevious, hname⟩ := (follow_append_eq_ok _ _).1 behind
      obtain ⟨-, rfl⟩ := (follow_name_eq_ok ⟨hstep, hlast⟩).1 hname
      have above : (previous ++ [last]).dropLast = previous := List.dropLast_concat
      rw [if_neg (by decide), if_pos rfl, above] at rest
      exact ih isStep hprevious rest onward
    · obtain ⟨next, hnext, rest⟩ := (follow_append_eq_ok [s] segments).1 ahead
      refine ih (List.forall_mem_cons.2 ⟨⟨hempty, hhere, hslash⟩, isStep⟩) ?_ rest onward
      rw [List.reverse_cons]
      exact (follow_append_eq_ok _ _).2 ⟨between, behind, hnext⟩

/-! ## Following paths -/

theorem toPath_ne_nil (l : Location) : l.toPath ≠ [] := by
  unfold Location.toPath
  dsimp only
  split
  · decide
  · next h => simpa using h

section

variable [WorkingFolder]

def startAt (anchor : Anchor) : List Segment :=
  if anchor = .relative then WorkingFolder.segments else []

theorem startOf_eq (path : List Char) : startOf path = startAt (Anchor.ofPath path) := by
  unfold startOf startAt
  by_cases h : Anchor.ofPath path = .relative
  · rw [if_pos h, if_neg fun hc => (startsAtSlash_iff path).1 hc h]
  · rw [if_neg h, if_pos ((startsAtSlash_iff path).2 h)]

theorem placeOf_eq_ok {path : String} :
    disk.placeOf path = .ok place ↔ path ≠ "" ∧
      disk.follow (startAt (Anchor.ofPath path.toList)) (split '/' path.toList)
        = .ok place := by
  unfold placeOf
  rw [startOf_eq]
  by_cases h : path = ""
  · simp [h]
  · have : path.isEmpty = false := by simpa using h
    simp [h, this]

theorem folder_of_placeOf {path : String} (h : disk.placeOf path = .ok place) :
    disk.itemAt? (startAt (Anchor.ofPath path.toList)) = some .folder := by
  obtain ⟨-, followed⟩ := placeOf_eq_ok.1 h
  cases hsplit : split '/' path.toList with
  | nil => exact absurd hsplit (split_ne_nil _ _)
  | cons s segments =>
    rw [hsplit] at followed
    exact (follow_cons_eq_ok.1 followed).1

theorem placeOf_toPath {l : Location} (isStep : ∀ s ∈ l.segments, IsStep s)
    (folder : disk.itemAt? (startAt l.anchor) = some .folder)
    (followed : disk.follow (startAt l.anchor) l.segments = .ok place) :
    disk.placeOf (String.ofList l.toPath) = .ok place := by
  rw [placeOf_eq_ok, String.toList_ofList, anchor_toPath isStep]
  refine ⟨?_, ?_⟩
  · intro hempty
    exact toPath_ne_nil l (by simpa using congrArg String.toList hempty)
  · obtain ⟨anchor, segments⟩ := l
    -- What stands in front of the first step are empty segments at the root, or one `.`.
    have skip {s : Segment} (hs : s = [] ∨ s = here) {rest : List Segment}
        (h : disk.follow (startAt anchor) rest = .ok place) :
        disk.follow (startAt anchor) (s :: rest) = .ok place :=
      follow_cons_eq_ok.2 ⟨folder, by rwa [if_pos hs]⟩
    cases segments with
    | nil =>
      cases anchor with
      | relative => exact skip (.inr rfl) followed
      | root => exact skip (.inl rfl) (skip (.inl rfl) followed)
      | doubleRoot => exact skip (.inl rfl) (skip (.inl rfl) (skip (.inl rfl) followed))
    | cons s segments =>
      have inner := split_joinWith (by simp) fun part hpart => (isStep part hpart).2.2
      have filled : (anchor.text ++ joinWith ['/'] (s :: segments)).isEmpty = false := by
        cases segments <;> simp [joinWith, (isStep s (List.mem_cons_self ..)).1]
      unfold Location.toPath
      simp only [filled, Bool.false_eq_true, if_false]
      cases anchor with
      | relative =>
        rw [Anchor.text, List.nil_append, inner]
        exact followed
      | root =>
        show disk.follow _ ([] :: split '/' (joinWith ['/'] (s :: segments))) = _
        rw [inner]
        exact skip (.inl rfl) followed
      | doubleRoot =>
        show disk.follow _ ([] :: [] :: split '/' (joinWith ['/'] (s :: segments))) = _
        rw [inner]
        exact skip (.inl rfl) (skip (.inl rfl) followed)

/-- **A path that leads somewhere leads there in its normal spelling.** -/
theorem placeOf_normalize {path : String} (plain : backslash ∉ path.toList)
    (h : disk.placeOf path = .ok place) : disk.placeOf (Path.normalize path) = .ok place := by
  obtain ⟨-, followed⟩ := placeOf_eq_ok.1 h
  obtain ⟨trail, htrail, hlocation⟩ := trail_ofPath path.toList
  have folder := folder_of_placeOf h
  rw [Path.normalize, normalizeChars_of_plain plain, hlocation]
  refine placeOf_toPath (fun s hs => htrail.isStep s (List.mem_reverse.1 hs)) folder ?_
  have nothing : ∀ s ∈ ([] : List Segment), IsStep s := fun s hs => absurd hs List.not_mem_nil
  have walked := follow_walk (Anchor.ofPath path.toList) (fun hanchor => if_neg hanchor) nothing rfl
    followed fun s hs => not_mem_of_mem_split hs
  have same := congrArg Location.segments hlocation
  rw [Location.ofPath] at same
  rwa [← same]

theorem placeOf_tidy {path : String} (h : disk.placeOf path = .ok place) :
    disk.placeOf (tidy path) = .ok place := by
  obtain ⟨-, followed⟩ := placeOf_eq_ok.1 h
  exact placeOf_toPath (l := ⟨_, steps (split '/' path.toList)⟩) (fun s hs => isStep_of_mem_steps hs)
    (folder_of_placeOf h) (follow_steps followed)

end

/-! ## Reading and writing -/

/-- A path leads to the same place on a disk with the same folders and more. -/
theorem follow_mono {other : Disk} {segments : List Segment}
    (folders : ∀ front, disk.itemAt? front = some .folder → other.itemAt? front = some .folder)
    (h : disk.follow start segments = .ok place) : other.follow start segments = .ok place := by
  induction segments generalizing start with
  | nil => exact h
  | cons s segments ih =>
    obtain ⟨folder, rest⟩ := follow_cons_eq_ok.1 h
    exact follow_cons_eq_ok.2 ⟨folders start folder, ih rest⟩

theorem find_eq_ok [WorkingFolder] {path : String} {item : DiskItem} :
    disk.find path = .ok (place, item) ↔
      disk.placeOf path = .ok place ∧ disk.itemAt? place = some item := by
  unfold find
  cases disk.placeOf path with
  | error dead => simp [bind, Except.bind]
  | ok found =>
    simp only [bind, Except.bind]
    cases hitem : disk.itemAt? found with
    | none =>
      simp only [reduceCtorEq, Except.ok.injEq, false_iff, not_and]
      rintro rfl
      simp [hitem]
    | some other =>
      simp only [pure, Except.pure, Except.ok.injEq, Prod.mk.injEq]
      refine and_congr_right ?_
      rintro rfl
      simp [hitem]

theorem readText_eq_ok [WorkingFolder] {path text : String} :
    disk.readText path = .ok text ↔ ∃ place bytes, disk.placeOf path = .ok place ∧
      disk.itemAt? place = some (.file bytes) ∧ textOf bytes = .ok text := by
  have unique {place : List Segment} {item : DiskItem} {found : Except Dead (List Segment × DiskItem)}
      (hfound : disk.find path = found) (hplace : disk.placeOf path = .ok place)
      (hitem : disk.itemAt? place = some item) : found = .ok (place, item) :=
    hfound.symm.trans (find_eq_ok.2 ⟨hplace, hitem⟩)
  unfold readText readBytes
  rcases hfound : disk.find path with dead | ⟨place, _ | bytes⟩
  · constructor
    · exact fun h => absurd h (by simp [bind, Except.bind])
    · rintro ⟨place, bytes, hplace, hitem, -⟩
      exact absurd (unique hfound hplace hitem) (by simp)
  · constructor
    · exact fun h => absurd h (by simp [bind, Except.bind])
    · rintro ⟨place, bytes, hplace, hitem, -⟩
      exact absurd (unique hfound hplace hitem) (by simp)
  · obtain ⟨hplace, hitem⟩ := find_eq_ok.1 hfound
    constructor
    · exact fun h => ⟨place, bytes, hplace, hitem, h⟩
    · rintro ⟨other, otherBytes, hother, hotherItem, htext⟩
      obtain ⟨-, hbytes⟩ := Prod.mk.inj (Except.ok.inj (unique hfound hother hotherItem))
      obtain rfl := DiskItem.file.inj hbytes
      exact htext

/-- The text of a file as it is read back. -/
def readBack (text : String) : String :=
  String.ofList (unifyNewlines text.toList)

/-- What is read is cut where the text on disk is, and never between the two characters of one line
end. -/
theorem unifyNewlines_eq_append {raw front back : List Char}
    (h : unifyNewlines raw = front ++ back) :
    ∃ rawFront rawBack, raw = rawFront ++ rawBack ∧ unifyNewlines rawFront = front ∧
      unifyNewlines rawBack = back := by
  fun_induction unifyNewlines raw generalizing front with
  | case1 =>
    obtain ⟨rfl, rfl⟩ := List.append_eq_nil_iff.1 h.symm
    exact ⟨[], [], rfl, rfl, rfl⟩
  | case2 s ih =>
    cases front with
    | nil => exact ⟨[], '\r' :: '\n' :: s, rfl, rfl, h⟩
    | cons c front =>
      obtain ⟨rfl, hs⟩ := List.cons.inj h
      obtain ⟨rawFront, rawBack, rfl, rfl, hback⟩ := ih hs
      exact ⟨'\r' :: '\n' :: rawFront, rawBack, rfl, rfl, hback⟩
  | case3 c s single ih =>
    cases front with
    | nil => exact ⟨[], c :: s, rfl, rfl, by rw [unifyNewlines.eq_3 c s single]; exact h⟩
    | cons d front =>
      obtain ⟨rfl, hs⟩ := List.cons.inj h
      obtain ⟨rawFront, rawBack, rfl, rfl, hback⟩ := ih hs
      refine ⟨c :: rawFront, rawBack, rfl, unifyNewlines.eq_3 c rawFront ?_, hback⟩
      rintro rest rfl rfl
      exact single (rest ++ rawBack) rfl rfl

theorem readBack_eq_self {text : String} (h : '\r' ∉ text.toList) : readBack text = text := by
  rw [readBack, unifyNewlines_eq_self h, String.ofList_toList]

theorem textOf_toUTF8 (text : String) : textOf text.toUTF8 = .ok (readBack text) := by
  have decoded : Utf8.decode? text.toUTF8 = some text := dif_pos text.isValidUTF8
  rw [textOf, decoded]
  rfl

theorem writeText_eq_ok [WorkingFolder] {path text : String} {after : Disk}
    (h : disk.writeText path text = .ok after) : ∃ place, disk.placeOf path = .ok place ∧
      disk.itemAt? place ≠ some .folder ∧ after = disk.put place (.file text.toUTF8) := by
  unfold writeText at h
  cases hplace : disk.placeOf path with
  | error dead => rw [hplace] at h; exact absurd h (by simp)
  | ok place =>
    rw [hplace] at h
    dsimp only at h
    split at h
    · exact absurd h (by simp)
    · exact absurd h (by simp)
    · exact absurd h (by simp)
    · next notFolder _ _ => exact ⟨place, rfl, fun folder => notFolder folder,
        (Except.ok.inj h).symm⟩

theorem ne_nil_of_not_folder (h : disk.itemAt? place ≠ some .folder) : place ≠ [] := by
  rintro rfl
  exact h rfl

theorem folders_put {item : DiskItem} (h : disk.itemAt? place ≠ some .folder) (front : List Segment)
    (folder : disk.itemAt? front = some .folder) :
    (disk.put place item).itemAt? front = some .folder := by
  by_cases hfront : front = []
  · subst hfront
    rfl
  · rw [itemAt?_put _ _ _ _ hfront, if_neg fun same : front = place => h (same ▸ folder)]
    exact folder

/-- Putting a file somewhere leaves the ways to other places. -/
theorem placeOf_put [WorkingFolder] {path : String} {other : List Segment} {item : DiskItem}
    (notFolder : disk.itemAt? place ≠ some .folder) (h : disk.placeOf path = .ok other) :
    (disk.put place item).placeOf path = .ok other := by
  obtain ⟨ne, followed⟩ := placeOf_eq_ok.1 h
  exact placeOf_eq_ok.2 ⟨ne, follow_mono (folders_put notFolder) followed⟩

/-- **A text that was written is read back**, with its line ends unified. -/
theorem readText_writeText [WorkingFolder] {path text : String} {after : Disk}
    (h : disk.writeText path text = .ok after) : after.readText path = .ok (readBack text) := by
  obtain ⟨place, hplace, notFolder, rfl⟩ := writeText_eq_ok h
  refine readText_eq_ok.2 ⟨place, _, placeOf_put notFolder hplace, ?_,
    textOf_toUTF8 text⟩
  rw [itemAt?_put _ _ _ _ (ne_nil_of_not_folder notFolder), if_pos rfl]

theorem readText_of_writeText [WorkingFolder] {path other text kept : String} {after : Disk}
    (h : disk.writeText path text = .ok after) (read : disk.readText other = .ok kept)
    (apart : disk.placeOf other ≠ disk.placeOf path) : after.readText other = .ok kept := by
  obtain ⟨place, hplace, notFolder, rfl⟩ := writeText_eq_ok h
  obtain ⟨otherPlace, bytes, hother, item, text⟩ := readText_eq_ok.1 read
  refine readText_eq_ok.2 ⟨otherPlace, bytes, placeOf_put notFolder hother, ?_,
    text⟩
  have different : otherPlace ≠ place := by
    rintro rfl
    exact apart (hother.trans hplace.symm)
  by_cases hnil : otherPlace = []
  · subst hnil
    exact absurd item (by simp [itemAt?])
  · rw [itemAt?_put _ _ _ _ hnil, if_neg different]
    exact item

/-! ## Trees of files -/

/-- A disk whose items have names and stand in folders that are there. -/
structure IsTree (disk : Disk) : Prop where
  names : ∀ place ∈ disk.items.keys, place ≠ [] ∧ ∀ s ∈ place, IsName s
  folders : ∀ place ∈ disk.items.keys, ∀ n < place.length, disk.itemAt? (place.take n) = some .folder

/-- No name on a disk has a backslash in it, which a path cannot tell from a slash. -/
def HasPlainNames (disk : Disk) : Prop :=
  ∀ place ∈ disk.items.keys, ∀ s ∈ place, backslash ∉ s

theorem follow_of_folders {names : List Segment} (isName : ∀ s ∈ names, IsName s)
    (folders : ∀ n < names.length, disk.itemAt? (start ++ names.take n) = some .folder) :
    disk.follow start names = .ok (start ++ names) := by
  induction names generalizing start with
  | nil => rw [List.append_nil]; rfl
  | cons s names ih =>
    obtain ⟨hs, hnames⟩ := List.forall_mem_cons.1 isName
    have first := folders 0 (Nat.zero_lt_succ _)
    rw [List.take_zero, List.append_nil] at first
    have rest : disk.follow (start ++ [s]) names = .ok (start ++ [s] ++ names) := by
      refine ih hnames fun n hn => ?_
      rw [List.append_assoc]
      exact folders (n + 1) (Nat.succ_lt_succ hn)
    rw [List.append_assoc] at rest
    exact (follow_append_eq_ok [s] names).2 ⟨_, (follow_name_eq_ok hs).2 ⟨first, rfl⟩, rest⟩

theorem below?_eq_some {folder way : List Segment} :
    below? folder place = some way ↔ place = folder ++ way := by
  induction folder generalizing place with
  | nil => simp [below?, eq_comm]
  | cons s folder ih =>
    cases place with
    | nil => simp [below?]
    | cons t place =>
      unfold below?
      split
      · next h => simp [h, ih]
      · next h => simp [Ne.symm h]

theorem mem_filesBelow {folder way : List Segment} {bytes : ByteArray} :
    (way, bytes) ∈ disk.filesBelow folder ↔ (folder ++ way, .file bytes) ∈ disk.items.entries := by
  unfold filesBelow
  rw [List.mem_mergeSort, List.mem_filterMap]
  constructor
  · rintro ⟨⟨place, item⟩, hmem, h⟩
    dsimp only at h
    split at h
    · next hway =>
      obtain ⟨rfl, rfl⟩ := Prod.mk.inj (Option.some.inj h)
      rw [← below?_eq_some.1 hway]
      exact hmem
    · exact absurd h (by simp)
  · intro h
    refine ⟨_, h, ?_⟩
    simp [below?_eq_some.2 rfl]

theorem IsTree.follow_way (tree : disk.IsTree) {folder way : List Segment} {item : DiskItem}
    (h : (folder ++ way, item) ∈ disk.items.entries) :
    disk.follow folder way = .ok (folder ++ way) := by
  have key : folder ++ way ∈ disk.items.keys := List.mem_map_of_mem h
  refine follow_of_folders (fun s hs => (tree.names _ key).2 s (List.mem_append_right _ hs)) ?_
  intro n hn
  have front := tree.folders _ key (folder.length + n) (by simp [hn])
  rwa [List.take_length_add_append] at front

theorem IsTree.itemAt?_of_mem (tree : disk.IsTree) {item : DiskItem}
    (h : (place, item) ∈ disk.items.entries) : disk.itemAt? place = some item := by
  have named := (tree.names _ (List.mem_map_of_mem h)).1
  rw [itemAt?, if_neg (by simpa using named)]
  exact (OrderedMap.get?_eq_some_iff ..).2 h

theorem IsTree.way_ne_nil (tree : disk.IsTree) {folder way : List Segment} {bytes : ByteArray}
    (isFolder : disk.itemAt? folder = some .folder)
    (h : (folder ++ way, .file bytes) ∈ disk.items.entries) : way ≠ [] := by
  rintro rfl
  have file := tree.itemAt?_of_mem h
  rw [List.append_nil, isFolder] at file
  exact absurd file (by simp)

theorem placeOf_pathBelow [WorkingFolder] {root : String} {folder way : List Segment}
    (hroot : disk.placeOf root = .ok folder) (isFolder : disk.itemAt? folder = some .folder)
    (ne : way ≠ []) (names : ∀ s ∈ way, IsName s) (followed : disk.follow folder way = .ok place) :
    disk.placeOf (FileStore.pathBelow root way) = .ok place := by
  obtain ⟨hempty, hfolder⟩ := placeOf_eq_ok.1 hroot
  have filled : root.toList ≠ [] := fun h => hempty (by simpa using h)
  have parts := split_joinWith ne fun s hs => (names s hs).1.2.2
  have head := head_joinWith fun s hs => (names s hs).1
  unfold FileStore.pathBelow
  dsimp only
  generalize root.toList = path at *
  generalize joinWith ['/'] way = text at *
  have leads {front : List Char} (segments : List Segment) (hfront : front ≠ [])
      (anchored : startOf front = startAt (Anchor.ofPath path))
      (hsplit : split '/' front = segments ++ way)
      (h : disk.follow (startAt (Anchor.ofPath path)) segments = .ok folder) :
      disk.placeOf (String.ofList front) = .ok place := by
    rw [placeOf_eq_ok, String.toList_ofList, ← startOf_eq, anchored, hsplit]
    refine ⟨fun hnil => hfront (by simpa using congrArg String.toList hnil), ?_⟩
    exact (follow_append_eq_ok _ _).2 ⟨folder, h, followed⟩
  have anchored (rest : List Char) :
      startOf (path ++ rest) = startAt (Anchor.ofPath path) := by
    rw [← startOf_eq]
    cases path with
    | nil => exact absurd rfl filled
    | cons c path => rfl
  split
  · next hhere =>
    subst hhere
    obtain ⟨-, hhere⟩ := follow_cons_eq_ok.1 hfolder
    refine leads [] ?_ ?_ parts hhere
    · rintro rfl
      exact (names [] (parts ▸ List.mem_singleton.2 rfl)).1.1 rfl
    · rw [startOf, if_neg head]
      rfl
  · rw [joinChars, if_neg head]
    split
    · next hlast =>
      have hlast : path.getLast? = some '/' := by simpa [filled] using hlast
      obtain ⟨front, rfl⟩ := List.getLast?_eq_some_iff.1 hlast
      rw [split_append] at hfolder
      obtain ⟨between, hfront, hlevel⟩ := (follow_append_eq_ok _ _).1 hfolder
      obtain ⟨-, hlevel⟩ := follow_cons_eq_ok.1 hlevel
      obtain rfl : between = folder := by simpa [follow] using hlevel
      refine leads _ (by simp) (anchored text) ?_ hfront
      rw [List.append_assoc, List.singleton_append, split_append, parts]
    · refine leads _ (by simp) (anchored ('/' :: text)) ?_ hfolder
      rw [split_append, parts]

end Disk

end RouteTrim
