import RouteTrim.Settings.Layer
import RouteTrim.Store.Disk
import RouteTrim.Yaml.Reader

/-!
# Where settings come from

The layers, each over the ones before it: the defaults, the root directory that was asked for, the
settings file of the project, the file that the environment names, the file that was asked for, the
variables of the environment, and the overrides. The files that were named must exist; the
project's own may be missing. It is looked for in the root directory of the first two layers.

Settings that were composed once are kept until they are asked for anew, and stay in force when
that fails.
-/

set_option autoImplicit false

namespace RouteTrim.Settings

open RouteTrim.Path (WorkingFolder)

/-- What settings are asked for. -/
structure Sources where
  rootDir : Option String := none
  configPath : Option String := none
  overrides : Layer := []

def projectFile : String := "linkprune.yaml"

/-- The entries of a settings file. A file that holds nothing, or a value that counts as nothing,
has none. -/
def readEntries [Yaml.Reader] (path text : String) : Except Failure Layer :=
  match Yaml.Reader.read text with
  | .error .malformed => .error (.invalidYaml path)
  | .error .beyondLimits => .error (.beyondLimits path)
  | .ok value =>
    if value.isTruthy then
      match value with
      | .map entries => .ok entries
      | _ => .error (.settingsNotMap path)
    else .ok []

/-- The layer of a settings file. One that is not required may be missing. -/
def readFile [WorkingFolder] [Yaml.Reader] (disk : Disk) (path : String) (required : Bool) :
    Except Failure Layer :=
  if disk.exists? path then disk.readText path >>= readEntries path
  else if required then .error (.settingsFileNotFound path)
  else .ok []

/-- Puts the layer of a file that was asked for over the settings. No file, or one without a name,
is no layer. -/
def mergeFile [WorkingFolder] [Yaml.Reader] (disk : Disk) (settings : Settings)
    (path : Option String) : Noted Settings :=
  match path with
  | some path =>
    if path.isEmpty then return settings
    else do merge settings (← readFile disk path true)
  | none => return settings

/-- The settings of the first two layers. -/
def Sources.base (sources : Sources) : Settings :=
  match sources.rootDir with
  | some rootDir => defaults.set .rootDir (.text rootDir)
  | none => defaults

/-- The settings of all layers. -/
def compose [WorkingFolder] [Yaml.Reader] (sources : Sources) (environment : Environment)
    (disk : Disk) : Noted Settings := do
  let base := sources.base
  let project := Path.join (base.value .rootDir).display projectFile
  let settings ← merge base (← readFile disk project false)
  let settings ← mergeFile disk settings (environment.get? settingsFileVariable)
  let settings ← mergeFile disk settings sources.configPath
  let settings := overlay settings (environmentLayer environment)
  merge settings sources.overrides

/-- The settings that were asked for, and the ones that are kept. -/
structure Service where
  sources : Sources
  kept : Option Settings := none

/-- What a service answers. -/
structure Answer (α : Type) where
  service : Service
  result : Except Failure α
  notices : List Notice

namespace Service

variable [WorkingFolder] [Yaml.Reader]

/-- The settings in force; composed anew if there are none yet or if that is asked for. -/
def settings (service : Service) (anew : Bool) (environment : Environment) (disk : Disk) :
    Answer Settings :=
  match service.kept, anew with
  | some kept, false => ⟨service, .ok kept, []⟩
  | _, _ =>
    match (compose service.sources environment disk).result with
    | (.ok composed, notices) => ⟨{ service with kept := some composed }, .ok composed, notices⟩
    | (.error failure, notices) => ⟨service, .error failure, notices⟩

/-- Composes the settings anew. -/
def reload (service : Service) (environment : Environment) (disk : Disk) : Answer Settings :=
  let answer := service.settings true environment disk
  { answer with notices := .reloading :: answer.notices }

/-- The build configuration of the settings in force. -/
def buildConfig (service : Service) (environment : Environment) (disk : Disk) :
    Answer BuildConfig :=
  let answer := service.settings false environment disk
  { answer with result := answer.result >>= build }

/-- The setting at a dotted path of keys, if there is one. -/
def get (service : Service) (path : String) (environment : Environment) (disk : Disk) :
    Answer (Option Value) :=
  let answer := service.settings false environment disk
  { answer with result := answer.result.map fun settings => settings.lookup? path }

end Service

end RouteTrim.Settings
