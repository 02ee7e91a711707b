import RouteTrim.Pass.TreeShaking
import RouteTrim.Proofs.Pass.Workspace

/-!
# What tree shaking does to the files

Tree shaking sets the framework's barrel and the compiled root factory, over and over if several
services go. The barrel is asked for before anything is set, and nothing that is set later takes a
file away, so the pass either fails over the files as they were or goes through.
-/

set_option autoImplicit false

namespace RouteTrim.Pass

open RouteTrim.Path (WorkingFolder)
open RouteTrim.Settings (BuildConfig Provider)

/-! ## Setting some files -/

/-- Some of the files were set. There are the same files in the same order, and only what was set is
dirty now that was not before. -/
structure Rewritten (targets : List String) (files after : FileStore) : Prop where
  paths : after.paths = files.paths
  dirty : ∀ key ∈ after.dirty, key ∈ files.dirty ∨ ∃ path ∈ targets, key = Path.normalize path

section

variable {targets : List String} {files between after : FileStore} {path : String}

theorem Rewritten.refl : Rewritten targets files files :=
  ⟨rfl, fun _ hkey => .inl hkey⟩

theorem Rewritten.trans (first : Rewritten targets files between)
    (next : Rewritten targets between after) : Rewritten targets files after :=
  ⟨next.paths.trans first.paths, fun key hkey => (next.dirty key hkey).elim (first.dirty key) .inr⟩

/-- A file that was there is still there. -/
theorem Rewritten.get? (h : Rewritten targets files after) {text : String}
    (stored : files.get? path = some text) : ∃ text', after.get? path = some text' := by
  have key : Path.normalize path ∈ after.files.keys := by
    have kept : after.files.keys = files.files.keys := h.paths
    rw [kept, ← OrderedMap.contains_iff_mem_keys]
    exact Option.isSome_of_eq_some stored
  exact Option.isSome_iff_exists.1 ((OrderedMap.contains_iff_mem_keys ..).2 key)

/-- One of the files is set. -/
theorem Rewritten.set (hpath : path ∈ targets) {old : String} (stored : files.get? path = some old)
    (text : String) : Rewritten targets files (files.set path text) := by
  refine ⟨FileStore.paths_set stored text, fun key hkey => ?_⟩
  unfold FileStore.set at hkey
  dsimp only at hkey
  split at hkey
  · exact .inl hkey
  · rcases List.mem_append.1 hkey with before | new
    · exact .inl before
    · exact .inr ⟨path, hpath, List.mem_singleton.1 new⟩

end

/-! ## The pass -/

/-- The files that tree shaking works on. -/
def frameworkTargets (config : BuildConfig) : List String :=
  [config.frameworkEntryPoint, config.rootFactoryModule]

section

variable {config : BuildConfig} {files : FileStore} {text : String}

/-- A service leaves the barrel, and the root factory if there is one. -/
theorem ends_purgeProvider [WorkingFolder] (provider : Provider)
    (stored : files.get? config.frameworkEntryPoint = some text) :
    ∃ after, Ends (purgeProvider config provider) files (.ok ()) after ∧
      Rewritten (frameworkTargets config) files after := by
  have barrel {between : FileStore} (kept : Rewritten (frameworkTargets config) files between) :
      ∃ after, Ends (do
        setContent config.frameworkEntryPoint
          (barrelWithout config provider (← content config.frameworkEntryPoint))
        tell (.providerRemoved provider.className)) between (.ok ()) after ∧
        Rewritten (frameworkTargets config) files after := by
    obtain ⟨text', stored'⟩ := kept.get? stored
    have read : Ends _ between _ between := ends_content config.frameworkEntryPoint
    rw [FileStore.content, stored'] at read
    exact ⟨_, read.bind ((ends_setContent _ _).bind (ends_tell _)),
      kept.trans (.set (.head _) stored' _)⟩
  unfold purgeProvider
  cases hfactory : files.get? config.rootFactoryModule with
  | none =>
    obtain ⟨after, rest, rewritten⟩ := barrel .refl
    refine ⟨after, ends_store.bind ?_, rewritten⟩
    rw [hfactory]
    exact rest
  | some factory =>
    obtain ⟨after, rest, rewritten⟩ :=
      barrel (.set (.tail _ (.head _)) hfactory (factoryWithout provider config.rootFactoryModule factory))
    refine ⟨after, ends_store.bind ?_, rewritten⟩
    rw [hfactory]
    exact (ends_setContent _ _).bind rest

/-- Service by service, whichever of them go. -/
theorem ends_purgeProviders [WorkingFolder] (providers : List Provider) (isPurged : Provider → Bool)
    (stored : files.get? config.frameworkEntryPoint = some text) :
    ∃ after, Ends (providers.forM fun provider =>
        if isPurged provider then purgeProvider config provider else return ()) files (.ok ()) after ∧
      Rewritten (frameworkTargets config) files after := by
  induction providers generalizing files text with
  | nil => exact ⟨files, ends_pure (), .refl⟩
  | cons provider providers ih =>
    obtain ⟨between, first, kept⟩ : ∃ between,
        Ends (if isPurged provider then purgeProvider config provider else return ()) files (.ok ())
          between ∧ Rewritten (frameworkTargets config) files between := by
      split
      · exact ends_purgeProvider provider stored
      · exact ⟨files, ends_pure (), .refl⟩
    obtain ⟨text', stored'⟩ := kept.get? stored
    obtain ⟨after, rest, rewritten⟩ := ih stored'
    exact ⟨after, first.bind rest, kept.trans rewritten⟩

/-- What is purged leaves the barrel, and the services among it the root factory too. -/
theorem ends_purgeUnused [WorkingFolder] (pruning : Pruning)
    (stored : files.get? config.frameworkEntryPoint = some text) :
    ∃ after, Ends (purgeUnused config pruning) files (.ok ()) after ∧
      Rewritten (frameworkTargets config) files after := by
  have read : Ends _ files _ files := ends_content config.frameworkEntryPoint
  rw [FileStore.content, stored] at read
  have set : Rewritten (frameworkTargets config) files _ := .set (.head _) stored
    (Purge.withoutModules config.frameworkEntryPoint text pruning.purgedPaths)
  obtain ⟨text', stored'⟩ := set.get? stored
  obtain ⟨after, rest, rewritten⟩ := ends_purgeProviders config.providers
    (fun provider => pruning.isPurged provider.controllerPath) stored'
  exact ⟨after, read.bind ((ends_tell _).bind ((ends_setContent _ _).bind rest)),
    set.trans rewritten⟩

/-- **Tree shaking fails over the files as they were, for lack of a file, or goes through** and has
set the barrel and the root factory at most. -/
theorem ends_optimize [WorkingFolder] (config : BuildConfig) (graph : ImportGraph)
    (files : FileStore) :
    (∃ path, Ends (optimize config graph) files (.error (.fileNotInStore path)) files) ∨
      ∃ pruning after, Ends (optimize config graph) files (.ok pruning) after ∧
        Rewritten (frameworkTargets config) files after := by
  cases stored : files.get? config.frameworkEntryPoint with
  | none =>
    have read : Ends _ files _ files := ends_content config.frameworkEntryPoint
    rw [FileStore.content, stored] at read
    have purge (pruning : Pruning) : Ends (purgeUnused config pruning) files (.error _) files :=
      read.bind_error
    exact .inl ⟨_, (ends_tell _).bind (purge _).bind_error⟩
  | some text =>
    obtain ⟨after, purge, rewritten⟩ := ends_purgeUnused
      (graph.unusedComponents config (ImportGraph.isEligible config)) stored
    exact .inr ⟨_, after, (ends_tell _).bind (purge.bind (ends_pure _)), rewritten⟩

end

end RouteTrim.Pass
