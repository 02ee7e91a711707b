import RouteTrim.Proofs.Command.Writing
import RouteTrim.Proofs.Pass.TreeShaking
import RouteTrim.Proofs.Path.Extension
import RouteTrim.Proofs.Store.Synced
import RouteTrim.Proofs.Store.Writing

/-!
# What commands may write

A command changes the disk in one place of its code, when its pass went through, and writes nothing
but the files that the pass set. So a run that is not told to write, that fails or that is answered
without a command leaves the disk as it was, and every other one changes the targets of its command
at most (`run_changes_targets`).

The targets are files by the normal spelling of their paths, in which a backslash is a slash. A file
is read by the path that the build gives, though. The two are the same file unless the suffix of
compiled files has a backslash: then the compiled root factory is read in one place and written in
another one, and if that cannot be written the barrel already is (`run_misses_factory`).
-/

set_option autoImplicit false

namespace RouteTrim.Command

open RouteTrim.FileStore (addFile_eq_ok)
open RouteTrim.Pass
open RouteTrim.Path (WorkingFolder)
open RouteTrim.Settings (BuildConfig Environment Service)
open RouteTrim.Tree (Parser)

namespace Run

variable {α : Type} {disk : Disk}

theorem ends_ofNoted (noted : Noted α) : Ends (ofNoted noted) disk noted.result.1 disk :=
  (ends_tell _).bind (ends_ofExcept rfl)

end Run

/-! ## The files of the framework -/

section

variable {disk : Disk} {config : BuildConfig} {files after : FileStore}

/-- The barrel comes first, then the root factory. Nothing is dirty, and all of it was read. -/
structure FrameworkFiles [WorkingFolder] (config : BuildConfig) (disk : Disk)
    (files : FileStore) : Prop where
  dirty : files.dirty = []
  paths : files.paths.Sublist
    ((frameworkTargets config).map fun path => Path.normalize (Path.tidy path))
  read : ∀ key ∈ files.paths, ∃ path ∈ frameworkTargets config,
    key = Path.normalize (Path.tidy path) ∧ disk.isFile (Path.tidy path) = true

theorem isFile_of_readText [WorkingFolder] {path text : String}
    (h : disk.readText path = .ok text) :
    disk.isFile path = true := by
  obtain ⟨place, bytes, hplace, hitem, -⟩ := Disk.readText_eq_ok.1 h
  exact Disk.isFile_iff.2 ⟨place, bytes, hplace, hitem⟩

theorem frameworkFiles_of_eq_ok [WorkingFolder] (h : frameworkFiles config disk = .ok files) :
    FrameworkFiles config disk files := by
  unfold frameworkFiles at h
  obtain ⟨⟨barrel, loaded⟩, hbarrel, h⟩ := bind_eq_ok.1 h
  obtain ⟨readBarrel, hloaded⟩ := addFile_eq_ok.1 hbarrel
  have paths : loaded.paths = [Path.normalize (Path.tidy config.frameworkEntryPoint)] := by
    rw [hloaded]
    rfl
  have dirty : loaded.dirty = [] := by
    rw [hloaded]
    rfl
  have first : ∀ key ∈ loaded.paths, ∃ path ∈ frameworkTargets config,
      key = Path.normalize (Path.tidy path) ∧ disk.isFile (Path.tidy path) = true := by
    rw [paths, List.forall_mem_singleton]
    exact ⟨config.frameworkEntryPoint, .head _, rfl, isFile_of_readText readBarrel⟩
  dsimp only at h
  split at h
  · next isFile =>
    obtain ⟨⟨factory, whole⟩, hfactory, h⟩ := bind_eq_ok.1 h
    obtain ⟨-, hwhole⟩ := addFile_eq_ok.1 hfactory
    obtain rfl := Except.ok.inj h
    subst hwhole
    refine ⟨dirty, ?_, fun key hkey => ?_⟩
    · rw [FileStore.paths_load, paths]
      split
      · exact (List.nil_sublist _).cons_cons _
      · exact List.Sublist.refl _
    · rcases FileStore.mem_keys_insert hkey with rfl | hkey
      · exact ⟨config.rootFactoryModule, .tail _ (.head _), rfl, isFile⟩
      · exact first key hkey
  · obtain rfl := Except.ok.inj h
    exact ⟨dirty, paths ▸ (List.nil_sublist _).cons_cons _, first⟩

end

/-! ## What is written -/

/-- Two disks differ in no other places than those that some paths lead to in their normal
spelling. -/
def ChangedAt [WorkingFolder] (paths : List String) (disk after : Disk) : Prop :=
  ∀ place, (∀ path ∈ paths, disk.placeOf (Path.normalize path) ≠ .ok place) →
    after.itemAt? place = disk.itemAt? place

section

variable {disk : Disk} {config : BuildConfig} {files after : FileStore}

theorem changedAt_writeFiles [WorkingFolder] {paths targets : List String}
    (written : ∀ key ∈ (files.writeFiles paths disk).written, ∃ path ∈ targets,
      key = Path.normalize path) :
    ChangedAt targets disk (files.writeFiles paths disk).disk := by
  intro place apart
  refine FileStore.itemAt?_writeFiles fun key hkey => ?_
  obtain ⟨path, hpath, rfl⟩ := written key hkey
  rw [Path.tidy_normalize]
  exact apart path hpath

theorem mem_of_mem_written [WorkingFolder] {paths : List String} {key : String}
    (h : key ∈ (files.writeFiles paths disk).written) : key ∈ paths := by
  obtain ⟨rest, whole, -⟩ := files.written_prefix paths disk
  exact whole ▸ List.mem_append_left rest h

/-- Unless a list has both of two things, what stands in front of its end is the first one. -/
theorem eq_of_mem_front {α : Type} {a b c : α} {front back : List α}
    (whole : (front ++ back).Sublist [a, b]) (ne : back ≠ []) (h : c ∈ front) : c = a := by
  have short := whole.length_le
  have some := List.length_pos_iff.2 ne
  rw [List.length_append, List.length_cons, List.length_cons, List.length_nil] at short
  obtain ⟨first, rfl⟩ : ∃ first, front = [first] :=
    List.length_eq_one_iff.1 (by have := List.length_pos_of_mem h; omega)
  have all := whole.eq_of_length_le (by simp; omega)
  obtain rfl := List.mem_singleton.1 h
  exact (List.cons.inj all).1

/-- The barrel and the root factory have plain paths if the suffix of compiled files is plain. -/
theorem plain_frameworkTargets (plain : PlainPaths config)
    (suffix : Text.backslash ∉ config.compiledSuffix.toList) :
    ∀ path ∈ frameworkTargets config, Text.backslash ∉ path.toList := by
  rw [frameworkTargets, List.forall_mem_cons, List.forall_mem_singleton]
  refine ⟨plain.frameworkEntryPoint, fun h => ?_⟩
  rcases Path.mem_changeExtension h with h | h
  · exact plain.rootDescriptorPath h
  · rw [String.toList_append, List.mem_append] at h
    exact h.elim suffix (by decide)

variable [WorkingFolder] (framework : FrameworkFiles config disk files)
  (rewritten : Rewritten (frameworkTargets config) files after)

include framework rewritten

/-- What tree shaking sets is written as the barrel and the root factory. -/
theorem changedAt_frameworkTargets :
    ChangedAt (frameworkTargets config) disk (after.writeFiles after.dirtyPaths disk).disk := by
  refine changedAt_writeFiles fun key hkey => ?_
  have dirty := (FileStore.mem_dirtyPaths.1 (mem_of_mem_written hkey)).2
  refine (rewritten.dirty key dirty).resolve_left ?_
  rw [framework.dirty]
  exact List.not_mem_nil

/-- Files that were read under plain paths can be written. -/
theorem fault_frameworkTargets (plain : PlainPaths config)
    (suffix : Text.backslash ∉ config.compiledSuffix.toList) :
    (after.writeFiles after.dirtyPaths disk).fault = none := by
  refine FileStore.fault_writeFiles fun key hkey => ?_
  have stored := (FileStore.mem_dirtyPaths.1 hkey).1
  rw [rewritten.paths] at stored
  obtain ⟨path, hpath, rfl, isFile⟩ := framework.read key stored
  rw [Path.tidy_normalize]
  exact Disk.isFile_normalize
    (Path.plain_tidy (plain_frameworkTargets plain suffix path hpath)) isFile

/-- The barrel comes first, so it is the one that is written if something cannot be. -/
theorem changedAt_frameworkEntryPoint (plain : PlainPaths config)
    (fault : (after.writeFiles after.dirtyPaths disk).fault ≠ none) :
    ChangedAt [config.frameworkEntryPoint] disk
      (after.writeFiles after.dirtyPaths disk).disk := by
  refine changedAt_writeFiles fun key hkey => ⟨_, .head _, ?_⟩
  obtain ⟨rest, whole, more⟩ := after.written_prefix after.dirtyPaths disk
  -- What is dirty stands in the order of the store, which is the order in which it was read.
  have ordered : after.dirtyPaths.Sublist _ :=
    (after.dirtyPaths_sublist.trans (rewritten.paths ▸ List.Sublist.refl _)).trans framework.paths
  rw [← whole, frameworkTargets, List.map_cons, List.map_singleton] at ordered
  rw [eq_of_mem_front ordered (more fault) hkey]
  exact Path.normalize_tidy plain.frameworkEntryPoint

end

/-! ## A run -/

section

variable {environment : Environment} {options : Options} {disk : Disk} {config : BuildConfig}
  {report : ImportGraph} {files : FileStore}

/-- Tree shaking goes on with the build configuration and the dependency report. -/
theorem ends_reported [WorkingFolder] [Yaml.Reader] [Json.Host]
    (built : (Service.buildConfig { sources := sourcesOf options } environment disk).result
      = .ok config) {graph : String} (loaded : (Report.load disk graph).result.1 = .ok report)
    {rest : BuildConfig → ImportGraph → Run Unit} {result : Except Failure Unit} {after : Disk}
    (h : Run.Ends (rest config report) disk result after) : Run.Ends (do
      let config ← buildConfig environment options
      let graph ← Run.ofNoted (Report.load (← Run.disk) graph)
      rest config graph) disk result after := by
  have read : Run.Ends _ disk _ disk := Run.ends_ofNoted (Report.load disk graph)
  rw [loaded] at read
  exact (Run.ends_buildConfig built).bind (Run.ends_disk.bind (read.bind h))

variable [WorkingFolder] [Yaml.Reader] [Json.Host] [Console]

/-- What a run ends with that writes some files and shows what was pruned. -/
def pruned? (pruning : Pruning) (writing : FileStore.Writing) : Except Failure Unit :=
  Run.written? writing >>= fun written => Run.shown? (Display.pruningResult pruning) >>= fun _ =>
    Run.shown? [.success ("Rewrote " ++ toString written.length ++ " file(s)")]

theorem ends_treeShake_write
    (built : (Service.buildConfig { sources := sourcesOf options } environment disk).result
      = .ok config) {graph : String} (loaded : (Report.load disk graph).result.1 = .ok report)
    (write : options.write = true)
    (read : frameworkFiles config disk = .ok files) {pruning : Pruning}
    {workspace : Workspace} (shaken : Pass.run (optimize config report) files = (.ok pruning, workspace))
    {writing : FileStore.Writing}
    (h : workspace.files.writeFiles workspace.files.dirtyPaths disk = writing) :
    Run.Ends (treeShake environment options graph) disk (pruned? pruning writing) writing.disk := by
  unfold treeShake
  refine ends_reported built loaded ?_
  rw [write]
  refine Run.ends_disk.bind ((Run.ends_ofExcept read).bind ((Run.ends_ofPass shaken).bind ?_))
  have written := Run.ends_writeDirty h
  have shown : Run.Ends _ writing.disk _ writing.disk :=
    Run.ends_display (Display.pruningResult pruning)
  unfold pruned?
  cases result : Run.written? writing with
  | error failure =>
    rw [result] at written
    exact written.bind_error
  | ok paths =>
    rw [result] at written
    refine written.bind ?_
    generalize Run.shown? (Display.pruningResult pruning) = first at shown ⊢
    cases first with
    | error failure => exact shown.bind_error
    | ok _ => exact shown.bind (Run.ends_display _)

/-- The ways in which tree shaking ends, with what it ends with and the disk that it leaves. -/
inductive Shaken (environment : Environment) (options : Options) (graph : String) (disk : Disk) :
    Except Failure Unit → Disk → Prop
  /-- The settings make no configuration. -/
  | unbuilt {failure : Failure} :
    (Service.buildConfig { sources := sourcesOf options } environment disk).result
      = .error failure → Shaken environment options graph disk (.error failure) disk
  /-- The dependency report is not loaded. -/
  | unloaded {config : BuildConfig} {failure : Failure} :
    (Service.buildConfig { sources := sourcesOf options } environment disk).result = .ok config →
    (Report.load disk graph).result.1 = .error failure →
    Shaken environment options graph disk (.error failure) disk
  /-- Nothing is to be written. -/
  | shown {config : BuildConfig} {report : ImportGraph} {result : Except Failure Unit} :
    (Service.buildConfig { sources := sourcesOf options } environment disk).result = .ok config →
    (Report.load disk graph).result.1 = .ok report → options.write = false → Run.Showing result →
    Shaken environment options graph disk result disk
  /-- The framework's files are not read. -/
  | unread {config : BuildConfig} {report : ImportGraph} {failure : Failure} :
    (Service.buildConfig { sources := sourcesOf options } environment disk).result = .ok config →
    (Report.load disk graph).result.1 = .ok report → options.write = true →
    frameworkFiles config disk = .error failure →
    Shaken environment options graph disk (.error failure) disk
  /-- The pass asks for a file that is not there. -/
  | lacking {config : BuildConfig} {report : ImportGraph} (path : String) :
    (Service.buildConfig { sources := sourcesOf options } environment disk).result = .ok config →
    (Report.load disk graph).result.1 = .ok report → options.write = true →
    Shaken environment options graph disk (.error (.fileNotInStore path)) disk
  /-- The pass goes through, and what it set is written, up to the first fault. -/
  | written {config : BuildConfig} {report : ImportGraph} {files after : FileStore} (pruning : Pruning) :
    (Service.buildConfig { sources := sourcesOf options } environment disk).result = .ok config →
    (Report.load disk graph).result.1 = .ok report → options.write = true →
    frameworkFiles config disk = .ok files → Rewritten (frameworkTargets config) files after →
    Shaken environment options graph disk (pruned? pruning (after.writeFiles after.dirtyPaths disk))
      (after.writeFiles after.dirtyPaths disk).disk

theorem ends_treeShake (environment : Environment) (options : Options) (graph : String)
    (disk : Disk) :
    ∃ result after, Run.Ends (treeShake environment options graph) disk result after ∧
      Shaken environment options graph disk result after := by
  rcases built :
      (Service.buildConfig { sources := sourcesOf options } environment disk).result with
    failure | config
  · exact ⟨_, _, (Run.ends_buildConfig built).bind_error, .unbuilt built⟩
  rcases loaded : (Report.load disk graph).result.1 with failure | report
  · have missing : Run.Ends _ disk _ disk := Run.ends_ofNoted (Report.load disk graph)
    rw [loaded] at missing
    exact ⟨_, _, (Run.ends_buildConfig built).bind (Run.ends_disk.bind missing.bind_error),
      .unloaded built loaded⟩
  cases write : options.write with
  | false =>
    unfold treeShake
    rw [write]
    exact ⟨_, _, ends_reported built loaded ((Run.ends_tell _).bind (Run.ends_display _)),
      .shown built loaded write (Run.showing_shown? _)⟩
  | true =>
    rcases read : frameworkFiles config disk with failure | files
    · unfold treeShake
      rw [write]
      exact ⟨_, _, ends_reported built loaded
        (Run.ends_disk.bind (Run.ends_ofExcept read).bind_error), .unread built loaded write read⟩
    rcases ends_optimize config report files with
      ⟨path, failed⟩ | ⟨pruning, shaken, done, rewritten⟩
    · obtain ⟨notices, failed⟩ := failed.run
      unfold treeShake
      rw [write]
      exact ⟨_, _, ends_reported built loaded (Run.ends_disk.bind ((Run.ends_ofExcept read).bind
        (Run.ends_ofPass failed).bind_error)), .lacking path built loaded write⟩
    obtain ⟨notices, done⟩ := done.run
    exact ⟨_, _, ends_treeShake_write built loaded write read done rfl,
      .written pruning built loaded write read rewritten⟩

/-- Tree shaking leaves the disk as it is, or it changes the barrel and the root factory; if it
fails then, the console refused something, or it has changed the barrel only. -/
theorem Shaken.changes {graph : String} {result : Except Failure Unit} {after : Disk}
    (h : Shaken environment options graph disk result after) :
    after = disk ∨ options.write = true ∧ ∃ config,
      (Service.buildConfig { sources := sourcesOf options } environment disk).result
        = .ok config ∧
      ChangedAt (frameworkTargets config) disk after ∧
      (Run.Showing result ∨ Text.backslash ∈ config.compiledSuffix.toList ∧
        ChangedAt [config.frameworkEntryPoint] disk after) := by
  cases h with
  | unbuilt | unloaded | shown | unread | lacking => exact .inl rfl
  | @written config report files after pruning built loaded write read rewritten =>
    obtain ⟨settings, -, described⟩ := bind_eq_ok.1 built
    have plain := plainPaths_of_build described
    have framework := frameworkFiles_of_eq_ok read
    refine .inr ⟨write, config, built, changedAt_frameworkTargets framework rewritten, ?_⟩
    unfold pruned? Run.written?
    cases fault : (after.writeFiles after.dirtyPaths disk).fault with
    | none => exact .inl ((Run.showing_shown? _).bind (Run.showing_shown? _))
    | some failure =>
      refine .inr ⟨?_, changedAt_frameworkEntryPoint framework rewritten plain (by simp [fault])⟩
      -- A plain suffix makes plain paths, and under those what was read can be written.
      by_contra suffix
      rw [fault_frameworkTargets framework rewritten plain suffix] at fault
      exact absurd fault (by simp)

end

/-- The files that a command changes. -/
def targets (config : BuildConfig) : Name → List String
  | .deeplinks => [config.registrationTargetPath]
  | .treeshake => frameworkTargets config

/-- A pass that does all or nothing goes through, or the files are as they were. -/
theorem done_or_same {α : Type} {pass : Pass α} {files : FileStore}
    {outcome : Except Failure (α × FileStore)} (h : AllOrNothing pass files outcome) :
    (∃ result, (Pass.run pass files).1 = .ok result) ∨ (Pass.run pass files).2.files = files := by
  cases outcome with
  | error failure =>
    obtain ⟨notices, ran⟩ := Ends.run h
    rw [ran]
    exact .inr rfl
  | ok done =>
    obtain ⟨notices, ran⟩ := Ends.run h
    rw [ran]
    exact .inl ⟨done.1, rfl⟩

section

variable [WorkingFolder] [Parser] [Yaml.Reader] [Json.Host] [Console]

theorem run_deepLinks_target (environment : Environment) (disk : Disk) {arguments : List String}
    {options : Options} (asked : readArguments arguments = .command .deeplinks options) :
    let outcome := run environment disk arguments
    outcome.session.disk = disk ∨ options.write = true ∧ ∃ config,
      (Service.buildConfig { sources := sourcesOf options } environment disk).result = .ok config ∧
      ChangedAt [config.registrationTargetPath] disk outcome.session.disk ∧
      (outcome.ending.status? = some 0 ∨ outcome.ending.IsRefused) := by
  obtain ⟨result, after, body, frame⟩ := ends_deepLinks_writeText environment options disk
  dsimp only
  rcases frame with rfl | ⟨write, showing, config, files, links, text, patched,
    replaced, built, -, -, -, -, written⟩
  · exact .inl (run_of_body asked rfl body).1
  · obtain ⟨hdisk, ending⟩ := run_of_showing asked rfl rfl body showing
    rw [hdisk]
    refine .inr ⟨write, config, built, fun place apart => ?_, ending⟩
    refine Disk.itemAt?_of_writeText written ?_
    rw [Path.tidy_normalize]
    exact apart _ (.head _)

theorem run_treeShake_targets (environment : Environment) (disk : Disk) {arguments : List String}
    {options : Options} (asked : readArguments arguments = .command .treeshake options) :
    let outcome := run environment disk arguments
    outcome.session.disk = disk ∨ options.write = true ∧ ∃ config,
      (Service.buildConfig { sources := sourcesOf options } environment disk).result = .ok config ∧
      ChangedAt (frameworkTargets config) disk outcome.session.disk ∧
      (outcome.ending.status? = some 0 ∨ outcome.ending.IsRefused ∨
        Text.backslash ∈ config.compiledSuffix.toList ∧
        ChangedAt [config.frameworkEntryPoint] disk outcome.session.disk) := by
  obtain ⟨result, after, body, shaken⟩ :=
    ends_treeShake environment options (options.graph.getD "") disk
  dsimp only
  rcases shaken.changes with rfl | ⟨write, config, built, changed, showing | partly⟩
  · exact .inl (run_of_body asked rfl body).1
  · obtain ⟨hdisk, ending⟩ := run_of_showing asked rfl rfl body showing
    rw [hdisk]
    exact .inr ⟨write, config, built, changed, ending.imp_right .inl⟩
  · rw [(run_of_body asked rfl body).1]
    exact .inr ⟨write, config, built, changed, .inr (.inr partly)⟩

/-- **A run changes the targets of its command or nothing.** If the disk changes at all, the run was
told to write, and the command's targets are the only places that differ. Then the run has done its
work and ends with the status 0, unless the console refuses to show what was done. The one exception
is a run of `treeshake` with a backslash in the suffix of compiled files, which may end otherwise
and has changed the barrel then. The passes of both commands leave the files as they were if they
fail. -/
theorem run_changes_targets (environment : Environment) (disk : Disk) (arguments : List String) :
    (let outcome := run environment disk arguments
    outcome.session.disk = disk ∨
      ∃ name options config, readArguments arguments = .command name options
        ∧ options.write = true ∧
        (Service.buildConfig { sources := sourcesOf options } environment disk).result
          = .ok config ∧
        ChangedAt (targets config name) disk outcome.session.disk ∧
        (outcome.ending.status? = some 0 ∨ outcome.ending.IsRefused ∨
          name = .treeshake ∧ Text.backslash ∈ config.compiledSuffix.toList ∧
          ChangedAt [config.frameworkEntryPoint] disk outcome.session.disk)) ∧
    ∀ (config : BuildConfig) (graph : ImportGraph) (files : FileStore),
      ((∃ result, (Pass.run (deepLink config) files).1 = .ok result) ∨
        (Pass.run (deepLink config) files).2.files = files) ∧
      ((∃ pruning, (Pass.run (optimize config graph) files).1 = .ok pruning) ∨
        (Pass.run (optimize config graph) files).2.files = files) := by
  refine ⟨?_, fun config graph files => ⟨done_or_same deepLink_allOrNothing, ?_⟩⟩
  · dsimp only
    rcases asked : readArguments arguments with _ | ⟨stopped, reason⟩ | ⟨_ | _, options⟩
    · left
      unfold run
      rw [asked]
    · left
      unfold run
      rw [asked]
    · refine (run_deepLinks_target environment disk asked).imp_right ?_
      rintro ⟨write, config, built, changed, done⟩
      exact ⟨.deeplinks, options, config, rfl, write, built, changed, done.imp_right .inl⟩
    · refine (run_treeShake_targets environment disk asked).imp_right ?_
      rintro ⟨write, config, built, changed, done⟩
      exact ⟨.treeshake, options, config, rfl, write, built, changed,
        done.imp_right fun more => more.imp_right (⟨rfl, ·⟩)⟩
  · rcases ends_optimize config graph files with ⟨missing, ends⟩ | ⟨pruning, after, ends, -⟩
    · obtain ⟨notices, ran⟩ := ends.run
      rw [ran]
      exact .inr rfl
    · obtain ⟨notices, ran⟩ := ends.run
      rw [ran]
      exact .inl ⟨pruning, rfl⟩

end

/-- The barrel of a project, which exports one component, and other files. -/
def splitDisk (others : List (String × String)) : Disk :=
  let files := [("/g", "\x7b\"/components/alert/alert-controller.js\":[\"/index.js\"]\x7d"),
    ("/index.js", "export\x7b\x7dfrom'./components/alert/alert-controller'"),
    ("/m\\x.js", "import*as a from'../components/alert/alert-controller'")]
  (files ++ others).foldl (fun disk file =>
    disk.makeFile ((Text.split '/' file.1.toList).drop 1) file.2.toUTF8) .empty

/-- The settings of the project. -/
def plainEnvironment : Environment :=
  .ofList [("LINKPRUNE_FRAMEWORK_DIR", "/"), ("LINKPRUNE_ROOT_DESCRIPTOR_PATH", "m.ts")]

/-- The settings of the project with a backslash in the suffix of its compiled files. -/
def splitEnvironment : Environment :=
  plainEnvironment.insert "LINKPRUNE_COMPILED_SUFFIX" "\\x"

/-- What tree shaking leaves behind if it is to write. -/
def splitOutcome [Console] (environment : Environment)
    (others : List (String × String)) : Outcome :=
  run environment (splitDisk others) ["treeshake", "--root", "/", "/g", "--write"]

/-- The targets of the run by the configuration of the project. -/
def splitTargets (environment : Environment)
    (others : List (String × String)) : Option (List String) :=
  let disk := splitDisk others
  (Service.buildConfig { sources := sourcesOf { root := "/" } } environment
    disk).result.toOption.map fun config => targets config .treeshake

/-- Whether a run leaves another text under a path than it found. -/
def splitChanges (outcome : Outcome) (others : List (String × String)) (path : String) : Bool :=
  (outcome.session.disk.readText path).toOption != ((splitDisk others).readText path).toOption

@[reducible] def asciiConsole : Console where
  shows item := item.texts.all fun text => text.toList.all fun c => decide (c.toNat < 128)

/-- **A root factory with a backslash in its name is written elsewhere, and the console may cut a
run short that has written.** In the first run the factory cannot be written, and the run fails
after it has written the barrel. In the second one another file is there, which is no target by its
name, and the run goes through and takes it. In the third run nothing is wrong, but the console has
no check mark. -/
theorem run_misses_factory :
    (let outcome := splitOutcome splitEnvironment []
    outcome.ending.status? = some 1 ∧ splitChanges outcome [] "/index.js" = true) ∧
    (let others := [("/m/x.js", "//")]
    let outcome := splitOutcome splitEnvironment others
    splitTargets splitEnvironment others = some ["/index.js", "/m\\x.js"] ∧
      outcome.ending.status? = some 0 ∧ splitChanges outcome others "/m/x.js" = true) ∧
    (let outcome := @splitOutcome asciiConsole plainEnvironment []
    outcome.ending.status? = none ∧ outcome.ending.wasRefused = true ∧
      splitChanges outcome [] "/index.js" = true) := by
  decide +kernel

end RouteTrim.Command
