import Mathlib.Data.List.Induction
import RouteTrim.Proofs.Store.Synced

/-!
# What is dirty since when

A store is made of some files or read from a tree, and worked on until another one takes its place.
Here its dirty files are told from the history of the calls alone. A file is dirty since its text
was replaced by a different one (`Event.Replaces`), whatever its text is set to after that. A call
that brings the whole store in step with its disk ends this (`Event.Settles`): a new store, or dirty
files that were all written.

Reading one file again brings that file in step, too (`Event.Rereads`), but leaves it dirty if it
was. So a file is dirty either because its text was replaced since it was last brought in step, or
because it was read again while it was dirty (`mem_dirtyPaths_run_iff`).
-/

set_option autoImplicit false

namespace RouteTrim.FileStore

open RouteTrim.Path (tidy WorkingFolder)

/-! ## Histories -/

/-- A call on a store, or for another one in its place. -/
inductive Call where
  /-- A new store, made of files. -/
  | ofList (files : List (String × String))
  /-- A new store, read from a tree. -/
  | loadTree (root : String) (suffixes : List String)
  | work (operation : Operation)

/-- A call, with the disk as it is when the call is made. -/
structure Event where
  call : Call
  disk : Disk

namespace Event

/-- The store after a call. One that fails leaves the old store as it was. -/
def apply [WorkingFolder] (event : Event) (store : FileStore) : FileStore :=
  match event.call with
  | .ofList files => FileStore.ofList files
  | .loadTree root suffixes =>
    match FileStore.loadTree event.disk root suffixes with
    | .ok loaded => loaded
    | .error _ => store
  | .work operation => (operation.step ⟨store, event.disk⟩).store

/-- Whether a call replaces the text of a file by a different one, or by the first one it has. -/
def Replaces (key : String) (store : FileStore) (event : Event) : Prop :=
  ∃ path text, event.call = .work (.set path text) ∧ Path.normalize path = key ∧
    store.files.get? key ≠ some text

/-- Whether a call brings the whole store in step with its disk. -/
def Settles [WorkingFolder] (store : FileStore) (event : Event) : Prop :=
  match event.call with
  | .ofList _ => True
  | .loadTree root suffixes => ∃ loaded, FileStore.loadTree event.disk root suffixes = .ok loaded
  | .work .writeDirty => (store.writeDirty event.disk).2.fault = none
  | .work _ => False

/-- Whether a call reads a file again. -/
def Rereads [WorkingFolder] (key : String) (store : FileStore) (event : Event) : Prop :=
  ∃ path text after, event.call = .work (.addFile path) ∧
    store.addFile event.disk path = .ok (text, after) ∧ Path.normalize (tidy path) = key

/-- Whether a call brings a file in step with the disk. -/
def Synchronizes [WorkingFolder] (key : String) (store : FileStore) (event : Event) : Prop :=
  event.Settles store ∨ event.Rereads key store

end Event

/-- The store after a history of calls. -/
def run [WorkingFolder] (past : List Event) : FileStore :=
  past.foldl (fun store event => event.apply store) empty

/-- Some call of a history begins something, and no later call ends it. -/
def Since [WorkingFolder] (begins ends : FileStore → Event → Prop) (past : List Event) : Prop :=
  ∃ before event later, past = before ++ event :: later ∧ begins (run before) event ∧
    ∀ front next back, later = front ++ next :: back →
      ¬ends (run (before ++ event :: front)) next

variable {past : List Event} {event : Event} {store : FileStore} {key : String}

theorem run_snoc [WorkingFolder] (past : List Event) (event : Event) :
    run (past ++ [event]) = event.apply (run past) := by
  rw [run, List.foldl_append]
  rfl

section

variable {begins ends : FileStore → Event → Prop}

theorem not_since_nil [WorkingFolder] : ¬Since begins ends [] := by
  rintro ⟨before, event, later, order, -⟩
  exact absurd order.symm (by simp)

/-- After one more call something holds if that call begins it, or if it held before and the call
does not end it. -/
theorem since_snoc [WorkingFolder] : Since begins ends (past ++ [event]) ↔
    begins (run past) event ∨ Since begins ends past ∧ ¬ends (run past) event := by
  constructor
  · rintro ⟨before, first, later, order, begun, lasting⟩
    rcases List.eq_nil_or_concat' later with rfl | ⟨later, last, rfl⟩
    · obtain ⟨rfl, same⟩ := List.append_inj' order rfl
      obtain rfl : event = first := List.head_eq_of_cons_eq same
      exact .inl begun
    · rw [← List.cons_append, ← List.append_assoc] at order
      obtain ⟨rfl, same⟩ := List.append_inj' order rfl
      obtain rfl : event = last := List.head_eq_of_cons_eq same
      refine .inr ⟨⟨before, first, later, rfl, begun, fun front next back split => ?_⟩,
        lasting later event [] rfl⟩
      exact lasting front next (back ++ [event]) (by rw [split]; simp)
  · rintro (begun | ⟨⟨before, first, later, rfl, begun, lasting⟩, kept⟩)
    · exact ⟨past, event, [], rfl, begun, fun front next back split => absurd split (by simp)⟩
    · refine ⟨before, first, later ++ [event], by simp, begun, fun front next back split => ?_⟩
      rcases List.eq_nil_or_concat' back with rfl | ⟨back, last, rfl⟩
      · obtain ⟨rfl, same⟩ := List.append_inj' split rfl
        obtain rfl : event = next := List.head_eq_of_cons_eq same
        exact kept
      · rw [← List.cons_append, ← List.append_assoc] at split
        obtain ⟨rfl, -⟩ := List.append_inj' split rfl
        exact lasting front next back rfl

end

/-! ## One call -/

namespace Event

/-- No text of the store is replaced in a call. -/
def SetsNothing (event : Event) : Prop :=
  ∀ path text, event.call ≠ .work (.set path text)

/-- What becomes of a store in a call. -/
inductive Outcome [WorkingFolder] (store : FileStore) (event : Event) : FileStore → Prop where
  /-- Another store takes its place. -/
  | made (files : List (String × String)) : event.SetsNothing → event.Settles store →
      Outcome store event (ofList files)
  | set (path text : String) : event.call = .work (.set path text) →
      Outcome store event (store.set path text)
  /-- One file was read. -/
  | loaded (path text : String) : event.SetsNothing → ¬event.Settles store →
      Outcome store event (store.load path text)
  /-- The dirty files were all written. -/
  | written : event.SetsNothing → event.Settles store →
      Outcome store event { store with dirty := [] }
  | kept : event.SetsNothing → ¬event.Settles store → Outcome store event store

theorem outcome [WorkingFolder] (store : FileStore) (event : Event) :
    event.Outcome store (event.apply store) := by
  obtain ⟨call, disk⟩ := event
  have quiet (other : ∀ path text, call ≠ .work (.set path text)) :
      SetsNothing ⟨call, disk⟩ := other
  cases call with
  | ofList files => exact .made files (quiet (by simp)) trivial
  | loadTree root suffixes =>
    unfold apply
    dsimp only
    cases found : FileStore.loadTree disk root suffixes with
    | ok loaded =>
      obtain ⟨files, -, rfl⟩ := loadTree_eq_ok.1 found
      exact .made files (quiet (by simp)) ⟨_, found⟩
    | error failure =>
      refine .kept (quiet (by simp)) ?_
      rintro ⟨loaded, read⟩
      exact absurd (found.symm.trans read) (by simp)
  | work operation =>
    cases operation with
    | set path text => exact .set path text rfl
    | get | content | paths | breakOff => exact .kept (quiet (by simp)) fun h => h
    | addFile path =>
      unfold apply Operation.step
      dsimp only
      cases read : store.addFile disk path with
      | error failure => exact .kept (quiet (by simp)) fun h => h
      | ok found =>
        obtain ⟨text, after⟩ := found
        obtain ⟨-, rfl⟩ := addFile_eq_ok.1 read
        exact .loaded (tidy path) text (quiet (by simp)) fun h => h
    | writeDirty =>
      unfold apply Operation.step FileStore.writeDirty
      dsimp only
      cases fault : (store.writeFiles store.dirtyPaths disk).fault with
      | none => exact .written (quiet (by simp)) fault
      | some failure =>
        refine .kept (quiet (by simp)) fun settled => ?_
        exact absurd (fault.symm.trans settled) (by simp)

theorem SetsNothing.not_replaces (h : event.SetsNothing) : ¬event.Replaces key store := by
  rintro ⟨path, text, same, -⟩
  exact h path text same

theorem replaces_iff {path text : String} (call : event.call = .work (.set path text)) :
    event.Replaces key store ↔ Path.normalize path = key ∧ store.files.get? key ≠ some text := by
  constructor
  · rintro ⟨path, text, same, replaced⟩
    obtain ⟨rfl, rfl⟩ := Operation.set.inj (Call.work.inj (call.symm.trans same))
    exact replaced
  · exact fun replaced => ⟨path, text, call, replaced⟩

theorem not_settles_of_set [WorkingFolder] {path text : String}
    (call : event.call = .work (.set path text)) :
    ¬event.Settles store := by
  obtain ⟨_, disk⟩ := event
  obtain rfl := call
  exact fun settled => settled

theorem Rereads.not_settles [WorkingFolder] (h : event.Rereads key store) :
    ¬event.Settles store := by
  obtain ⟨call, disk⟩ := event
  obtain ⟨path, text, after, rfl, -⟩ := h
  exact fun settled => settled

end Event

theorem mem_dirty_set {path text : String} : key ∈ (store.set path text).dirty ↔
    (Path.normalize path = key ∧ store.files.get? key ≠ some text) ∨ key ∈ store.dirty := by
  unfold FileStore.set
  dsimp only
  split
  · next kept =>
    refine ⟨.inr, ?_⟩
    rintro (⟨rfl, replaced⟩ | dirty)
    · exact kept.resolve_left replaced
    · exact dirty
  · next replaced =>
    rw [List.mem_append, List.mem_singleton, or_comm]
    refine or_congr_left ⟨?_, fun h => h.1.symm⟩
    rintro rfl
    exact ⟨rfl, fun same => replaced (.inl same)⟩

/-- **What one call does to what is dirty.** -/
theorem mem_dirty_apply [WorkingFolder] : key ∈ (event.apply store).dirty ↔
    event.Replaces key store ∨ key ∈ store.dirty ∧ ¬event.Settles store := by
  have settled (quiet : event.SetsNothing) (h : event.Settles store) :
      ¬(event.Replaces key store ∨ key ∈ store.dirty ∧ ¬event.Settles store) :=
    not_or.2 ⟨quiet.not_replaces, fun unsettled => unsettled.2 h⟩
  have outcome := event.outcome store
  generalize event.apply store = after at outcome ⊢
  cases outcome with
  | made files quiet h =>
    rw [dirty_ofList]
    exact iff_of_false List.not_mem_nil (settled quiet h)
  | written quiet h => exact iff_of_false List.not_mem_nil (settled quiet h)
  | set path text call =>
    rw [Event.replaces_iff call, and_iff_left (Event.not_settles_of_set call)]
    exact mem_dirty_set
  | loaded _ _ quiet unsettled | kept quiet unsettled =>
    exact ((or_iff_right quiet.not_replaces).trans (and_iff_left unsettled)).symm

/-- A call that does not settle the store drops none of its files. -/
theorem paths_prefix_apply [WorkingFolder] (unsettled : ¬event.Settles store) :
    store.paths <+: (event.apply store).paths := by
  have outcome := event.outcome store
  generalize event.apply store = after at outcome ⊢
  cases outcome with
  | made _ _ settled | written _ settled => exact absurd settled unsettled
  | set path text | loaded path text => exact keys_prefix_insert ..
  | kept => exact List.prefix_refl _

theorem mem_paths_of_replaces [WorkingFolder]
    (h : event.Replaces key store) : key ∈ (event.apply store).paths := by
  obtain ⟨call, disk⟩ := event
  obtain ⟨path, text, rfl, rfl, -⟩ := h
  have stored : (store.set path text).files.get? (Path.normalize path) = some text :=
    (OrderedMap.get?_insert ..).trans (if_pos rfl)
  exact mem_paths_of_get? stored

/-! ## All calls -/

theorem mem_paths_of_mem_dirty [WorkingFolder]
    (dirty : key ∈ (run past).dirty) : key ∈ (run past).paths := by
  induction past using List.reverseRecOn with
  | nil => exact absurd dirty List.not_mem_nil
  | append_singleton past event ih =>
    rw [run_snoc] at dirty ⊢
    rcases mem_dirty_apply.1 dirty with replaced | ⟨dirty, unsettled⟩
    · exact mem_paths_of_replaces replaced
    · exact (paths_prefix_apply unsettled).subset (ih dirty)

theorem mem_dirtyPaths_run [WorkingFolder] : key ∈ (run past).dirtyPaths ↔ key ∈ (run past).dirty :=
  mem_dirtyPaths.trans (and_iff_right_of_imp mem_paths_of_mem_dirty)

theorem mem_dirtyPaths_run_snoc [WorkingFolder] : key ∈ (run (past ++ [event])).dirtyPaths ↔
    event.Replaces key (run past) ∨ key ∈ (run past).dirtyPaths ∧ ¬event.Settles (run past) := by
  rw [mem_dirtyPaths_run, mem_dirtyPaths_run, run_snoc, mem_dirty_apply]

theorem mem_dirtyPaths_run_iff_replaced [WorkingFolder] :
    key ∈ (run past).dirtyPaths ↔ Since (Event.Replaces key) Event.Settles past := by
  induction past using List.reverseRecOn with
  | nil => exact iff_of_false List.not_mem_nil not_since_nil
  | append_singleton past event ih => rw [mem_dirtyPaths_run_snoc, since_snoc, ih]

/-- A file is dirty since its text was replaced, until it is brought in step, or since it was read
again in spite of being dirty. -/
theorem mem_dirtyPaths_run_iff_replaced_or_reread [WorkingFolder] : key ∈ (run past).dirtyPaths ↔
    Since (Event.Replaces key) (Event.Synchronizes key) past ∨
      Since (fun store event => event.Rereads key store ∧ key ∈ store.dirtyPaths) Event.Settles
        past := by
  induction past using List.reverseRecOn with
  | nil => exact iff_of_false List.not_mem_nil (not_or.2 ⟨not_since_nil, not_since_nil⟩)
  | append_singleton past event ih =>
    rw [mem_dirtyPaths_run_snoc, since_snoc, since_snoc, ih]
    have reread : event.Rereads key (run past) → ¬event.Settles (run past) :=
      Event.Rereads.not_settles
    unfold Event.Synchronizes
    tauto

/-- **What is dirty since when.** Whatever calls were made on stores, under whatever spellings of
paths and with whatever disks, a file is dirty exactly when some call replaced its text by a
different one and no call has settled the whole store since. So it is dirty exactly when its text
was replaced since it was last brought in step with its disk, or when it was read again while it was
dirty, which brings it in step and leaves it dirty. -/
theorem mem_dirtyPaths_run_iff [WorkingFolder] (past : List Event) (key : String) :
    (key ∈ (run past).dirtyPaths ↔ Since (Event.Replaces key) Event.Settles past) ∧
      (key ∈ (run past).dirtyPaths ↔
        Since (Event.Replaces key) (Event.Synchronizes key) past ∨
          Since (fun store event => event.Rereads key store ∧ key ∈ store.dirtyPaths) Event.Settles
            past) :=
  ⟨mem_dirtyPaths_run_iff_replaced, mem_dirtyPaths_run_iff_replaced_or_reread⟩

/-- A file that is set and then read again. -/
def rereading : List Event :=
  [⟨.work (.set "/n/a" "four"), notesDisk⟩, ⟨.work (.addFile "/n/a"), notesDisk⟩]

/-- It has the text that it has on disk and counts as dirty, though its text was not replaced
since. -/
theorem dirty_after_rereading :
    notesDisk.readText "/n/a" = .ok "one\ntwo" ∧ (run rereading).get? "/n/a" = some "one\ntwo" ∧
      "/n/a" ∈ (run rereading).dirtyPaths ∧
      ¬Since (Event.Replaces "/n/a") (Event.Synchronizes "/n/a") rereading := by
  have read : notesDisk.readText "/n/a" = .ok "one\ntwo" := rfl
  refine ⟨read, by decide +kernel, by decide +kernel, ?_⟩
  have order : rereading = [⟨.work (.set "/n/a" "four"), notesDisk⟩]
    ++ [⟨.work (.addFile "/n/a"), notesDisk⟩] := rfl
  rw [order, since_snoc]
  rintro (⟨path, text, same, -⟩ | ⟨-, unsettled⟩)
  · exact absurd same (by simp)
  · have key : Path.normalize (tidy "/n/a") = "/n/a" := by decide +kernel
    have again : ∀ store : FileStore,
        store.addFile notesDisk "/n/a" = .ok ("one\ntwo", store.load (tidy "/n/a") "one\ntwo") :=
      fun store => addFile_eq_ok.2 ⟨read, rfl⟩
    exact unsettled (.inr ⟨_, _, _, rfl, again _, key⟩)

end RouteTrim.FileStore
