import RouteTrim.Proofs.Store.Loading

/-!
# What writing files leaves alone

Files are written one after the other, each into the place that its path leads to. A file that is
written is no folder, neither before nor behind that, so no path leads anywhere else than it did,
and the places of the written paths are the only ones that change. Where a file stands one can be
written, so writing stops only at a path that leads to none.
-/

set_option autoImplicit false

namespace RouteTrim

open RouteTrim.Path
open RouteTrim.Text (backslash)

namespace Disk

variable {disk after : Disk} {place other : List Segment} {path text : String}

/-! ## One file -/

theorem placeOf_put_file [WorkingFolder] (notFolder : disk.itemAt? place ≠ some .folder)
    (bytes : ByteArray) :
    (disk.put place (.file bytes)).placeOf path = .ok other ↔ disk.placeOf path = .ok other := by
  refine ⟨fun h => ?_, placeOf_put notFolder⟩
  obtain ⟨ne, followed⟩ := placeOf_eq_ok.1 h
  refine placeOf_eq_ok.2 ⟨ne, follow_mono (fun front folder => ?_) followed⟩
  by_cases hfront : front = []
  · subst hfront
    rfl
  · rw [itemAt?_put _ _ _ _ hfront] at folder
    split at folder
    -- A path that goes on below the place does so on neither disk: there is a file.
    · exact absurd folder (by simp)
    · exact folder

theorem itemAt?_of_writeText [WorkingFolder] (h : disk.writeText path text = .ok after)
    (apart : disk.placeOf path ≠ .ok place) : after.itemAt? place = disk.itemAt? place := by
  obtain ⟨written, hwritten, -, rfl⟩ := writeText_eq_ok h
  by_cases hplace : place = []
  · subst hplace
    rfl
  · rw [itemAt?_put _ _ _ _ hplace, if_neg]
    rintro rfl
    exact apart hwritten

theorem placeOf_of_writeText [WorkingFolder] (h : disk.writeText path text = .ok after)
    (spelled : String) :
    after.placeOf spelled = .ok place ↔ disk.placeOf spelled = .ok place := by
  obtain ⟨written, -, notFolder, rfl⟩ := writeText_eq_ok h
  exact placeOf_put_file notFolder _

theorem isFile_iff [WorkingFolder] : disk.isFile path = true ↔
    ∃ place bytes, disk.placeOf path = .ok place ∧ disk.itemAt? place = some (.file bytes) := by
  simp only [← find_eq_ok]
  unfold isFile
  rcases disk.find path with dead | ⟨place, _ | bytes⟩ <;> simp

/-- A file that is there can be written. -/
theorem exists_writeText [WorkingFolder] (file : disk.isFile path = true) (text : String) :
    ∃ after, disk.writeText path text = .ok after := by
  obtain ⟨place, bytes, hplace, hitem⟩ := isFile_iff.1 file
  unfold writeText
  rw [hplace]
  dsimp only
  rw [hitem]
  exact ⟨_, rfl⟩

theorem isFile_of_writeText [WorkingFolder] (h : disk.writeText path text = .ok after)
    {spelled : String}
    (file : disk.isFile spelled = true) : after.isFile spelled = true := by
  obtain ⟨place, bytes, hplace, hitem⟩ := isFile_iff.1 file
  rw [isFile_iff]
  simp only [placeOf_of_writeText h]
  obtain ⟨written, hwritten, notFolder, rfl⟩ := writeText_eq_ok h
  by_cases same : place = written
  · subst same
    refine ⟨place, text.toUTF8, hplace, ?_⟩
    rw [itemAt?_put _ _ _ _ (ne_nil_of_not_folder notFolder), if_pos rfl]
  · refine ⟨place, bytes, hplace, ?_⟩
    rw [← hitem]
    exact itemAt?_of_writeText h fun there =>
      same (Except.ok.inj (there.symm.trans hwritten))

theorem isFile_normalize [WorkingFolder] (plain : backslash ∉ path.toList)
    (file : disk.isFile path = true) :
    disk.isFile (Path.normalize path) = true := by
  obtain ⟨place, bytes, hplace, hitem⟩ := isFile_iff.1 file
  exact isFile_iff.2 ⟨place, bytes, placeOf_normalize plain hplace, hitem⟩

end Disk

/-! ## Faults -/

namespace Disk

variable {disk : Disk} {path text : String} {failure : Failure}

theorem isDiskFault_failure (dead : Dead) : (dead.failure path).isDiskFault = true := by
  cases dead <;> rfl

theorem isDiskFault_of_writeText [WorkingFolder] (h : disk.writeText path text = .error failure) :
    failure.isDiskFault = true := by
  unfold writeText at h
  split at h
  · obtain rfl := Except.error.inj h
    exact isDiskFault_failure _
  · split at h <;> cases h <;> rfl

theorem readBytes_eq_ok [WorkingFolder] {bytes : ByteArray} : disk.readBytes path = .ok bytes ↔
    ∃ place, disk.find path = .ok (place, .file bytes) := by
  unfold readBytes
  rcases disk.find path with dead | ⟨place, _ | found⟩ <;> simp

/-- A file is not read where there is none, which is a fault of the disk, or where its bytes are no
text. -/
theorem readText_eq_error [WorkingFolder] (h : disk.readText path = .error failure) :
    failure.isDiskFault = true ∨ failure = .notText ∧ ∃ place bytes, disk.placeOf path = .ok place ∧
      disk.itemAt? place = some (.file bytes) ∧ Text.Utf8.decode? bytes = none := by
  rcases bind_eq_error.1 h with unread | ⟨bytes, read, undecoded⟩
  · left
    unfold readBytes at unread
    split at unread <;> cases unread
    · rfl
    · exact isDiskFault_failure _
  · right
    unfold textOf at undecoded
    split at undecoded
    · cases undecoded
    · next none =>
      obtain ⟨place, found⟩ := readBytes_eq_ok.1 read
      obtain ⟨hplace, hitem⟩ := find_eq_ok.1 found
      exact ⟨(Except.error.inj undecoded).symm, place, bytes, hplace, hitem, none⟩

theorem readText_eq_notText [WorkingFolder] : disk.readText path = .error .notText ↔
    ∃ place bytes, disk.placeOf path = .ok place ∧ disk.itemAt? place = some (.file bytes) ∧
      Text.Utf8.decode? bytes = none := by
  constructor
  · intro h
    exact (readText_eq_error h).elim (fun fault => absurd fault (by decide)) And.right
  · rintro ⟨place, bytes, hplace, hitem, none⟩
    refine bind_eq_error.2 (.inr ⟨bytes, readBytes_eq_ok.2 ⟨place, ?_⟩, ?_⟩)
    · exact find_eq_ok.2 ⟨hplace, hitem⟩
    · rw [textOf, none]

end Disk

/-! ## Some files -/

namespace FileStore

variable {store : FileStore} {disk : Disk} {paths : List String}

theorem itemAt?_writeFiles [WorkingFolder] {place : List Segment}
    (apart : ∀ path ∈ (store.writeFiles paths disk).written, disk.placeOf (tidy path) ≠ .ok place) :
    (store.writeFiles paths disk).disk.itemAt? place = disk.itemAt? place := by
  induction paths generalizing disk with
  | nil => rfl
  | cons path paths ih =>
    unfold writeFiles at apart ⊢
    cases hwrite : disk.writeText (tidy path) ((store.files.get? path).getD "") with
    | error fault => rfl
    | ok after =>
      rw [hwrite] at apart
      obtain ⟨first, rest⟩ := List.forall_mem_cons.1 apart
      refine (ih fun next hnext => ?_).trans (Disk.itemAt?_of_writeText hwrite first)
      rw [Ne, Disk.placeOf_of_writeText hwrite]
      exact rest next hnext

/-- Files are written from the first one on, and all of them if there is no fault. -/
theorem written_prefix [WorkingFolder] (store : FileStore) (paths : List String) (disk : Disk) :
    ∃ rest, (store.writeFiles paths disk).written ++ rest = paths ∧
      ((store.writeFiles paths disk).fault ≠ none → rest ≠ []) := by
  induction paths generalizing disk with
  | nil => exact ⟨[], rfl, fun fault => absurd rfl fault⟩
  | cons path paths ih =>
    unfold writeFiles
    cases disk.writeText (tidy path) ((store.files.get? path).getD "") with
    | error fault => exact ⟨path :: paths, rfl, fun _ => by simp⟩
    | ok after =>
      obtain ⟨rest, hrest, fault⟩ := ih after
      exact ⟨rest, congrArg (path :: ·) hrest, fault⟩

/-- **Files that are there can all be written.** -/
theorem fault_writeFiles [WorkingFolder] (files : ∀ path ∈ paths, disk.isFile (tidy path) = true) :
    (store.writeFiles paths disk).fault = none := by
  induction paths generalizing disk with
  | nil => rfl
  | cons path paths ih =>
    obtain ⟨first, rest⟩ := List.forall_mem_cons.1 files
    obtain ⟨after, hwrite⟩ := Disk.exists_writeText first ((store.files.get? path).getD "")
    unfold writeFiles
    rw [hwrite]
    exact ih fun next hnext => Disk.isFile_of_writeText hwrite (rest next hnext)

theorem isDiskFault_of_writeFiles [WorkingFolder] {fault : Failure}
    (h : (store.writeFiles paths disk).fault = some fault) : fault.isDiskFault = true := by
  induction paths generalizing disk with
  | nil => cases h
  | cons path paths ih =>
    unfold writeFiles at h
    cases hwrite : disk.writeText (tidy path) ((store.files.get? path).getD "") with
    | error failure =>
      rw [hwrite] at h
      obtain rfl := Option.some.inj h
      exact Disk.isDiskFault_of_writeText hwrite
    | ok after =>
      rw [hwrite] at h
      exact ih h

end FileStore

end RouteTrim
