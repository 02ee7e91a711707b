import RouteTrim.Path.Basic

/-!
# Build configurations

What the passes know about a project: where its files are and how the framework names things.
Every path is a text; all of them are absolute once the root directory is.
-/

set_option autoImplicit false

namespace RouteTrim.Settings

/-- A service of the framework that is made on demand: the class that controls it and the files of
its user interface. -/
structure Provider where
  name : String
  className : String
  controllerPath : String
  componentPath : String
  componentFactoryPath : String
  deriving DecidableEq, Repr

/-- The configuration of one build. -/
structure BuildConfig where
  /-- The root directory of the project. -/
  rootDir : String
  /-- The directory with the sources of the app. -/
  srcDir : String
  /-- The module descriptor of the app itself. -/
  rootDescriptorPath : String
  /-- The file that starts the app. -/
  appEntryPoint : String
  /-- The directory of the installed framework. -/
  frameworkDir : String
  /-- The barrel of the framework, which exports all of it again. -/
  frameworkEntryPoint : String
  /-- Whether factories, compiled ahead of time, stand in for descriptors. -/
  compiledMode : Bool
  /-- What replaces a page's extension in the path of its descriptor. -/
  descriptorSuffix : String
  /-- What the stem of a compiled file ends with. -/
  compiledSuffix : String
  /-- What the name of a compiled class ends with. -/
  compiledClassSuffix : String
  /-- The decorator that declares a route. -/
  routeDecorator : String
  /-- The decorator that declares the registrar class of a descriptor. -/
  registrarDecorator : String
  /-- The class whose root method takes the registry. -/
  frameworkModule : String
  /-- The root method. -/
  frameworkRootMethod : String
  /-- The field of the root factory that takes the registry. -/
  compiledRegistryField : String
  /-- What the path of a compiled factory contains. -/
  compiledFactoryMarker : String
  /-- The services that the provider pass looks at. -/
  providers : List Provider
  deriving Repr

namespace BuildConfig

/-- The directory with the framework's components. -/
def frameworkComponentsDir (config : BuildConfig) : String :=
  Path.join config.frameworkDir "components"

def rootFactoryPath (config : BuildConfig) : String :=
  Path.changeExtension config.rootDescriptorPath (config.compiledSuffix ++ ".ts")

/-- The compiled root factory as a module of the bundle. -/
def rootFactoryModule (config : BuildConfig) : String :=
  Path.changeExtension config.rootDescriptorPath (config.compiledSuffix ++ ".js")

/-- The file that the registry is written into. -/
def registrationTargetPath (config : BuildConfig) : String :=
  if config.compiledMode then config.rootFactoryPath else config.rootDescriptorPath

/-- The modules that no pruning may take away. -/
def requiredModules (config : BuildConfig) : List String :=
  [Path.changeExtension config.appEntryPoint ".js",
    Path.changeExtension config.rootDescriptorPath ".js",
    config.rootFactoryModule]

/-- The dotted name of the method that takes the registry. -/
def rootMethodName (config : BuildConfig) : String :=
  config.frameworkModule ++ "." ++ config.frameworkRootMethod

end BuildConfig

end RouteTrim.Settings
