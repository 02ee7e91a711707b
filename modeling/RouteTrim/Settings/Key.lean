import RouteTrim.Text.Search
import RouteTrim.Value

/-!
# Settings

The settings of a build are a value for each of a fixed set of keys, so no layer can add or drop a
key. Their values are read from data files and environment variables and have any type; what a
build needs of them is decided when a build configuration is made.
-/

set_option autoImplicit false

namespace RouteTrim.Settings

/-- What can be set. -/
inductive Key where
  | rootDir
  | srcDir
  | rootDescriptorPath
  | appEntryPoint
  | frameworkDir
  | frameworkEntryPoint
  | compiledMode
  | descriptorSuffix
  | compiledSuffix
  | compiledClassSuffix
  | compiledFactoryMarker
  | routeDecorator
  | registrarDecorator
  | frameworkModule
  | frameworkRootMethod
  | compiledRegistryField
  | providers
  deriving DecidableEq, Repr

namespace Key

/-- Every key, in the order in which settings are listed. -/
def all : List Key :=
  [rootDir, srcDir, rootDescriptorPath, appEntryPoint, frameworkDir, frameworkEntryPoint,
    compiledMode, descriptorSuffix, compiledSuffix, compiledClassSuffix, compiledFactoryMarker,
    routeDecorator, registrarDecorator, frameworkModule, frameworkRootMethod,
    compiledRegistryField, providers]

/-- The name of a key in settings files. -/
def name : Key → String
  | rootDir => "root_dir"
  | srcDir => "src_dir"
  | rootDescriptorPath => "root_descriptor_path"
  | appEntryPoint => "app_entry_point"
  | frameworkDir => "framework_dir"
  | frameworkEntryPoint => "framework_entry_point"
  | compiledMode => "compiled_mode"
  | descriptorSuffix => "descriptor_suffix"
  | compiledSuffix => "compiled_suffix"
  | compiledClassSuffix => "compiled_class_suffix"
  | compiledFactoryMarker => "compiled_factory_marker"
  | routeDecorator => "route_annotation"
  | registrarDecorator => "registrar_annotation"
  | frameworkModule => "framework_module"
  | frameworkRootMethod => "framework_root_method"
  | compiledRegistryField => "compiled_registry_field"
  | providers => "providers"

/-- The key of a name. -/
def ofName? (name : String) : Option Key :=
  all.find? fun key => key.name == name

/-- The key that a key of a data file names. -/
def ofValue? : Value → Option Key
  | .text name => ofName? name
  | _ => none

theorem ofName?_name (key : Key) : ofName? key.name = some key := by
  cases key <;> decide

end Key

end RouteTrim.Settings

namespace RouteTrim

open RouteTrim.Settings (Key)

/-- A value for every key. -/
structure Settings where
  value : Key → Value

namespace Settings

/-- The settings with one value replaced. -/
def set (settings : Settings) (key : Key) (value : Value) : Settings :=
  ⟨fun other => if other = key then value else settings.value other⟩

@[simp] theorem value_set (settings : Settings) (key other : Key) (value : Value) :
    (settings.set key value).value other = if other = key then value else settings.value other :=
  rfl

/-- The settings as a map. -/
def toMap (settings : Settings) : Value :=
  .map (Key.all.map fun key => (.text key.name, settings.value key))

/-- The value at a path of keys; a step into something without that key leads nowhere. -/
def valueAt? : Value → List String → Option Value
  | value, [] => some value
  | .map entries, part :: path => Value.field? part entries >>= fun value => valueAt? value path
  | _, _ :: _ => none

/-- The setting that a dotted path of keys leads to. -/
def lookup? (settings : Settings) (path : String) : Option Value :=
  valueAt? settings.toMap ((Text.split '.' path.toList).map String.ofList)

end Settings

end RouteTrim
