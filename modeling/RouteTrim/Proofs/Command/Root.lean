import RouteTrim.Proofs.Command.Session
import RouteTrim.Proofs.Path.Normal
import RouteTrim.Proofs.Settings.Build
import RouteTrim.Proofs.Settings.History

/-!
# Which project a command works on

A command line gives two settings of its own. The mode is put over all layers, so a command that is
asked for compiled mode gets it. The root directory is put under all of them: it says where the
settings file of the project is looked for, but that file, any file that is named, and the
environment may name another root. Then this other one is where every relative path starts, and the
one that was asked for is only where the settings file lies.
-/

set_option autoImplicit false

namespace RouteTrim.Command

open RouteTrim.Path (WorkingFolder)
open RouteTrim.Settings

variable {environment : Environment} {options : Options} {disk : Disk} {config : BuildConfig}

/-- The root directory that a command line asks for. -/
def askedRoot [WorkingFolder] (options : Options) : String :=
  Path.absolute (if options.root.isEmpty then "." else options.root)

/-- The layer of the mode that a command line asks for. -/
def modeLayer (options : Options) : Layer :=
  if options.aot then [(.text Key.compiledMode.name, .bool true)] else []

/-- The layers between the root directory and the mode of a command line, in their order: the
settings file of the project, the ones that are named, and the environment. -/
def layersBetween [WorkingFolder] [Yaml.Reader] (environment : Environment) (options : Options)
    (disk : Disk) :
    Except Failure (List Layer) := do
  let project ← readFile disk (Path.join (askedRoot options) projectFile) false
  let named ← namedLayer disk (environment.get? settingsFileVariable)
  let explicit ← namedLayer disk options.config
  return [project, named, explicit, environmentLayer environment]

theorem result_buildConfig [WorkingFolder] [Yaml.Reader] (sources : Sources)
    (environment : Environment) (disk : Disk) :
    (Service.buildConfig { sources } environment disk).result
      = (compose sources environment disk).result.1 >>= build := by
  show (Service.settings { sources } false environment disk).result >>= build = _
  rw [settings_of_composes _ (.inr rfl)]
  rcases (compose sources environment disk).result with ⟨failure | composed, notices⟩ <;> rfl

theorem layersOf_sourcesOf [WorkingFolder] [Yaml.Reader] {layers : List Layer}
    (read : layersOf (sourcesOf options) environment disk = .ok layers) :
    ∃ between, layersBetween environment options disk = .ok between ∧
      layers = [rootLayer (some (askedRoot options))] ++ between ++ [modeLayer options] := by
  obtain ⟨project, hproject, read⟩ := bind_eq_ok.1 read
  obtain ⟨named, hnamed, read⟩ := bind_eq_ok.1 read
  obtain ⟨explicit, hexplicit, read⟩ := bind_eq_ok.1 read
  obtain rfl := Except.ok.inj read
  exact ⟨_, bind_eq_ok.2 ⟨project, hproject, bind_eq_ok.2 ⟨named, hnamed,
    bind_eq_ok.2 ⟨explicit, hexplicit, rfl⟩⟩⟩, rfl⟩

/-- A command works with the configuration that its layers give. -/
theorem built_of_ends [WorkingFolder] [Yaml.Reader]
    (works : Run.Ends (buildConfig environment options) disk (.ok config) disk) :
    ∃ between, layersBetween environment options disk = .ok between ∧
      Built (overlay defaults ([rootLayer (some (askedRoot options))] ++ between
        ++ [modeLayer options]).flatten) config := by
  have result : (Service.buildConfig { sources := sourcesOf options } environment disk).result
      = .ok config := by
    obtain ⟨_, -, ran⟩ := works { disk } rfl
    obtain ⟨_, -, same⟩ := Run.ends_buildConfig rfl { disk } rfl
    exact (congrArg Prod.fst same).symm.trans (congrArg Prod.fst ran)
  rw [result_buildConfig, compose_eq] at result
  obtain ⟨composed, hcomposed, built⟩ := bind_eq_ok.1 result
  cases read : layersOf (sourcesOf options) environment disk with
  | error failure =>
    rw [read] at hcomposed
    cases hcomposed
  | ok layers =>
    rw [read] at hcomposed
    obtain rfl := Except.ok.inj hcomposed
    obtain ⟨between, hbetween, rfl⟩ := layersOf_sourcesOf read
    exact ⟨between, hbetween, built_of_build built⟩

section

variable (options) (root : String) (between : List Layer)

theorem given?_modeLayer {key : Key} (other : key ≠ .compiledMode) :
    given? (modeLayer options) key = none := by
  unfold modeLayer
  split
  · rw [given?_singleton, ofValue?_name, if_neg fun same => other (Option.some.inj same).symm]
  · rfl

/-- The root directory is that of the last layer between that sets it, or the one asked for. -/
theorem value_rootDir : (overlay defaults
      ([rootLayer (some root)] ++ between ++ [modeLayer options]).flatten).value .rootDir
    = (lastGiven? between .rootDir).getD (.text root) := by
  have asked : given? (rootLayer (some root)) .rootDir = some (.text root) := by
    rw [rootLayer, Option.toList_some, List.map_singleton, given?_singleton,
      ofValue?_name, if_pos rfl]
  rw [value_overlay, given?_flatten, lastGiven?_append, lastGiven?_singleton,
    given?_modeLayer options (by decide), lastGiven?_append, lastGiven?_singleton, asked]
  cases lastGiven? between .rootDir <;> rfl

theorem value_compiledMode (aot : options.aot = true) : (overlay defaults
      ([rootLayer (some root)] ++ between ++ [modeLayer options]).flatten).value .compiledMode
    = .bool true := by
  have asked : given? (modeLayer options) .compiledMode = some (.bool true) := by
    rw [modeLayer, if_pos aot, given?_singleton, ofValue?_name, if_pos rfl]
  rw [value_overlay, given?_flatten, lastGiven?_append, lastGiven?_singleton, asked]
  rfl

end

/-- A root without a name is where the command runs, like a dot. -/
theorem normalize_rootText (root : String) :
    Path.normalize (rootText (.text root)) = Path.normalize root := by
  unfold rootText
  split
  · rfl
  · next empty =>
    have unnamed : root = "" := by simpa [Value.isTruthy] using empty
    rw [unnamed]
    rfl

/-- **A command works on the root directory that it was asked for only if no settings file and no
variable names another one**; the last of them that names one decides. The mode that it was asked
for it always gets. Every path setting is resolved against the root directory that it works on. -/
theorem rootDir_of_ends [WorkingFolder] [Yaml.Reader]
    (works : Run.Ends (buildConfig environment options) disk (.ok config) disk) :
    ∃ between, layersBetween environment options disk = .ok between ∧
      (lastGiven? between .rootDir = none →
        config.rootDir = Path.normalize (askedRoot options)) ∧
      (∀ value, lastGiven? between .rootDir = some value →
        config.rootDir = Path.normalize (rootText value)) ∧
      (options.aot = true → config.compiledMode = true) ∧
      Built (overlay defaults ([rootLayer (some (askedRoot options))] ++ between
        ++ [modeLayer options]).flatten) config ∧
      (Text.backslash ∉ (askedRoot options).toList →
        Path.normalize (askedRoot options) = askedRoot options) := by
  obtain ⟨between, hbetween, built⟩ := built_of_ends works
  have root := built.rootDir
  rw [value_rootDir] at root
  refine ⟨between, hbetween, fun unset => ?_, fun value set => ?_, fun aot => ?_, built,
    fun plain => Path.normalize_absolute plain⟩
  · rw [root, unset, Option.getD_none, normalize_rootText]
  · rw [root, set, Option.getD_some]
  · have mode := built.compiledMode
    rw [value_compiledMode _ _ _ aot] at mode
    exact (Except.ok.inj mode).symm

/-! ## Two projects -/

/-- A command line that asks for compiled mode. -/
def rootOptions : Options :=
  { root := "/p", aot := true }

/-- A disk with the settings file of a project. -/
def rootDisk (settings : String) : Disk where
  items := .ofList [(["p".toList], .folder),
    (["p".toList, "linkprune.yaml".toList], .file settings.toUTF8)]

/-- Neither the settings file nor the environment gets a command out of its mode. -/
theorem rootDir_of_ends_compiled : ∃ config,
    Run.Ends (buildConfig (.ofList [("LINKPRUNE_COMPILED_MODE", "0")]) rootOptions)
      (rootDisk "compiled_mode: off\nsrc_dir: lib\n") (.ok config)
      (rootDisk "compiled_mode: off\nsrc_dir: lib\n") ∧
    (layersBetween (.ofList [("LINKPRUNE_COMPILED_MODE", "0")]) rootOptions
      (rootDisk "compiled_mode: off\nsrc_dir: lib\n")).toOption.any
        (fun between => (lastGiven? between .rootDir).isNone) = true ∧
    config.rootDir = "/p" ∧ config.compiledMode = true ∧ config.srcDir = "/p/lib" := by
  have evaluated : (Service.buildConfig
        { sources := sourcesOf rootOptions }
        (.ofList [("LINKPRUNE_COMPILED_MODE", "0")])
        (rootDisk "compiled_mode: off\nsrc_dir: lib\n")).result.toOption.any
          (fun config => config.srcDir == "/p/lib") = true ∧
      (layersBetween (.ofList [("LINKPRUNE_COMPILED_MODE", "0")]) rootOptions
        (rootDisk "compiled_mode: off\nsrc_dir: lib\n")).toOption.any
          (fun between => (lastGiven? between .rootDir).isNone) = true := by
    decide +kernel
  obtain ⟨config, found, src⟩ := (Option.any_eq_true ..).1 evaluated.1
  have works := Run.ends_buildConfig (toOption_eq_some.1 found)
  obtain ⟨between, read, unset, -, mode, -⟩ := rootDir_of_ends works
  have none : lastGiven? between .rootDir = none := by
    have free := evaluated.2
    rw [read] at free
    exact Option.isNone_iff_eq_none.1 free
  refine ⟨config, works, evaluated.2, ?_, mode rfl, beq_iff_eq.1 src⟩
  rw [unset none]
  rfl

/-- **A settings file, or a variable, takes a command to another project** than the one that it was
asked for. -/
theorem runs_in_another_root :
    askedRoot rootOptions = "/p" ∧
    (∃ config, Run.Ends (buildConfig .empty rootOptions) (rootDisk "root_dir: /q\n") (.ok config)
        (rootDisk "root_dir: /q\n") ∧ config.rootDir = "/q" ∧
      config.registrationTargetPath = "/q/src/app/app.module.ngfactory.ts") ∧
    ∃ config, Run.Ends (buildConfig (.ofList [("LINKPRUNE_ROOT_DIR", "/q")]) rootOptions)
        (rootDisk "") (.ok config) (rootDisk "") ∧ config.rootDir = "/q" ∧
      config.registrationTargetPath = "/q/src/app/app.module.ngfactory.ts" := by
  have evaluated : askedRoot rootOptions = "/p" ∧
      (Service.buildConfig { sources := sourcesOf rootOptions } .empty
        (rootDisk "root_dir: /q\n")).result.toOption.any (fun config => config.rootDir = "/q" ∧
          config.registrationTargetPath = "/q/src/app/app.module.ngfactory.ts") = true ∧
      (Service.buildConfig { sources := sourcesOf rootOptions }
        (.ofList [("LINKPRUNE_ROOT_DIR", "/q")]) (rootDisk "")).result.toOption.any
          (fun config => config.rootDir = "/q" ∧
            config.registrationTargetPath = "/q/src/app/app.module.ngfactory.ts") = true := by
    decide +kernel
  obtain ⟨asked, byFile, byVariable⟩ := evaluated
  refine ⟨asked, ?_, ?_⟩
  · obtain ⟨config, found, other⟩ := (Option.any_eq_true ..).1 byFile
    exact ⟨config, Run.ends_buildConfig (toOption_eq_some.1 found), of_decide_eq_true other⟩
  · obtain ⟨config, found, other⟩ := (Option.any_eq_true ..).1 byVariable
    exact ⟨config, Run.ends_buildConfig (toOption_eq_some.1 found), of_decide_eq_true other⟩

end RouteTrim.Command
